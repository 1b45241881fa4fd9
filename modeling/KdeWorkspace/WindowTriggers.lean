import Mathlib.Tactic.Common

/-!
The window triggers of khotkeys.

Which events reach a trigger is settled when it is constructed, by the actions it has then. A trigger that is read
from the configuration is constructed without any, and gets its rules and actions afterwards: `restored_iff` says
for which rules and actions this makes no difference.
-/
namespace KdeWorkspace.WindowTriggers

abbrev WId := Nat

/-- The X server's `None`. -/
def None : WId := 0

/-- The flags of `window_action_t`. -/
structure WindowEvents where
  WINDOW_APPEARS : Bool
  WINDOW_DISAPPEARS : Bool
  WINDOW_ACTIVATES : Bool
  WINDOW_DEACTIVATES : Bool
deriving DecidableEq, Repr

def WindowEvents.none : WindowEvents := ⟨false,false,false,false⟩

section
variable {Data : Type}

/-- The rules of a list, each as the data of the windows that it matches. -/
abbrev Windowdef_list (Data : Type) := List (Data → Bool)

def Windowdef_list.match_ (windows : Windowdef_list Data) (window : Data) : Bool :=
  windows.isEmpty || windows.any fun rule => rule window

/-- `connected` is whether `active_window_changed` is connected. -/
structure WindowTrigger (Data : Type) where
  windows : Windowdef_list Data
  window_actions : WindowEvents
  existing_windows : WId → Option Bool
  last_active_window : WId
  active : Bool
  connected : Bool

namespace WindowTrigger

/-- The constructor, with what `init` connects. -/
def new (windows : Windowdef_list Data) (window_actions : WindowEvents) : WindowTrigger Data :=
  { windows := windows, window_actions := window_actions, existing_windows := fun _ => .none
    last_active_window := None, active := true
    connected := window_actions.WINDOW_ACTIVATES || window_actions.WINDOW_DEACTIVATES }

def set_window_rules (t : WindowTrigger Data) (windows : Windowdef_list Data) : WindowTrigger Data :=
  { t with windows := windows }

def setOnWindowEvents (t : WindowTrigger Data) (events : WindowEvents) : WindowTrigger Data :=
  { t with window_actions := events }

/-- What the settings reader makes. -/
def read (windows : Windowdef_list Data) (events : WindowEvents) : WindowTrigger Data :=
  ((new [] .none).set_window_rules windows).setOnWindowEvents events

def active_window_changed (t : WindowTrigger Data) (khotkeys_active : Bool) (window : WId) (data : Data) :
    WindowTrigger Data × List WId :=
  let t := if (t.existing_windows window).isNone then
      { t with existing_windows := Function.update t.existing_windows window (some (t.windows.match_ data)) }
    else t
  if !t.active || !khotkeys_active then ({ t with last_active_window := window },[])
  else
    let was_match := (t.existing_windows t.last_active_window).getD false
    ({ t with last_active_window := window },
      (if was_match && t.window_actions.WINDOW_DEACTIVATES then [window] else []) ++
      (if (t.existing_windows window).getD false && t.window_actions.WINDOW_ACTIVATES then [window] else []))

def window_added (t : WindowTrigger Data) (khotkeys_active : Bool) (window : WId) (data : Data) :
    WindowTrigger Data × List WId :=
  let found := t.windows.match_ data
  let t := { t with existing_windows := Function.update t.existing_windows window (some found) }
  if !t.active || !khotkeys_active then (t,[])
  else (t,if found && t.window_actions.WINDOW_APPEARS then [window] else [])

def window_removed (t : WindowTrigger Data) (khotkeys_active : Bool) (window : WId) : WindowTrigger Data × List WId :=
  let found := (t.existing_windows window).getD false
  let t := { t with existing_windows := Function.update t.existing_windows window .none }
  if !t.active || !khotkeys_active then (t,[])
  else (t,if found && t.window_actions.WINDOW_DISAPPEARS then [window] else [])

/-- `dirty` is whether the name or the type has changed. -/
def window_changed (t : WindowTrigger Data) (khotkeys_active : Bool) (active_window window : WId) (dirty : Bool)
    (data : Data) : WindowTrigger Data × List WId :=
  if !dirty then (t,[])
  else
    let was_match := (t.existing_windows window).getD false
    let found := t.windows.match_ data
    let t := { t with existing_windows := Function.update t.existing_windows window (some found) }
    if !t.active || !khotkeys_active then (t,[])
    else if found && !was_match then
      if t.window_actions.WINDOW_APPEARS then (t,[window])
      else if t.window_actions.WINDOW_ACTIVATES && window = active_window then (t,[window])
      else (t,[])
    else (t,[])

end WindowTrigger

/-- An event, with what the window is like when it comes. -/
inductive Event (Data : Type)
  | window_added (window : WId) (data : Data)
  | window_removed (window : WId)
  | window_changed (window : WId) (dirty : Bool) (data : Data)
  | active_window_changed (window : WId) (data : Data)
  | activate (active : Bool)

/-- What holds when an event comes: whether khotkeys is active, and the active window. -/
structure Context where
  khotkeys_active : Bool
  active_window : WId

namespace WindowTrigger

def step (t : WindowTrigger Data) (context : Context) : Event Data → WindowTrigger Data × List WId
  | .window_added window data => t.window_added context.khotkeys_active window data
  | .window_removed window => t.window_removed context.khotkeys_active window
  | .window_changed window dirty data =>
    t.window_changed context.khotkeys_active context.active_window window dirty data
  | .active_window_changed window data =>
    if t.connected then t.active_window_changed context.khotkeys_active window data else (t,[])
  | .activate active => ({ t with active := active },[])

/-- What is executed at each event of a run. -/
def executed (t : WindowTrigger Data) : List (Context × Event Data) → List (List WId)
  | [] => []
  | (context,event) :: events => (t.step context event).2 :: (t.step context event).1.executed events

/-- No window has matched, and none will. -/
structure Idle (t : WindowTrigger Data) : Prop where
  rules : ∀ data, t.windows.match_ data = false
  windows : ∀ window, (t.existing_windows window).getD false = false

variable {t : WindowTrigger Data}

theorem Idle.update (idle : t.Idle) (window : WId) (found : Option Bool) (none : found.getD false = false) :
    Idle { t with existing_windows := Function.update t.existing_windows window found } := by
  refine ⟨idle.rules,fun other => ?_⟩
  by_cases same : other = window
  · simp [same,none]
  · simpa [same] using idle.windows other

theorem Idle.step (idle : t.Idle) (context : Context) (event : Event Data) :
    (t.step context event).1.Idle ∧ (t.step context event).2 = [] := by
  cases event with
  | window_added window data =>
    have next := idle.update window (some (t.windows.match_ data)) (idle.rules data)
    simp only [WindowTrigger.step,window_added,idle.rules data,Bool.false_and]
    rw [idle.rules data] at next
    split
    · exact ⟨next,rfl⟩
    · exact ⟨next,rfl⟩
  | window_removed window =>
    have next := idle.update window .none rfl
    simp only [WindowTrigger.step,window_removed,idle.windows window,Bool.false_and]
    split
    · exact ⟨next,rfl⟩
    · exact ⟨next,rfl⟩
  | window_changed window dirty data =>
    have next := idle.update window (some (t.windows.match_ data)) (idle.rules data)
    simp only [WindowTrigger.step,window_changed,idle.rules data,Bool.false_and]
    rw [idle.rules data] at next
    split
    · exact ⟨idle,rfl⟩
    · split
      · exact ⟨next,rfl⟩
      · exact ⟨next,rfl⟩
  | active_window_changed window data =>
    simp only [WindowTrigger.step]
    split
    · have known : ∃ u : WindowTrigger Data, u.Idle ∧ u.last_active_window = t.last_active_window ∧
          (if (t.existing_windows window).isNone then
            { t with existing_windows := Function.update t.existing_windows window (some (t.windows.match_ data)) }
          else t) = u := by
        split
        · exact ⟨_,idle.update window (some (t.windows.match_ data)) (idle.rules data),rfl,rfl⟩
        · exact ⟨t,idle,rfl,rfl⟩
      obtain ⟨u,quiet,last,state⟩ := known
      simp only [active_window_changed,state,quiet.windows,Bool.false_and]
      split
      · exact ⟨⟨quiet.rules,quiet.windows⟩,rfl⟩
      · exact ⟨⟨quiet.rules,quiet.windows⟩,rfl⟩
    · exact ⟨idle,rfl⟩
  | activate active => exact ⟨⟨idle.rules,idle.windows⟩,rfl⟩

theorem Idle.executed (idle : t.Idle) (events : List (Context × Event Data)) :
    t.executed events = events.map fun _ => [] := by
  induction events generalizing t with
  | nil => rfl
  | cons head events ih =>
    obtain ⟨context,event⟩ := head
    obtain ⟨next,none⟩ := idle.step context event
    simp [WindowTrigger.executed,none,ih next]

theorem not_connected (apart : t.connected = false) (events : List (Context × WId × Data)) :
    t.executed (events.map fun e => (e.1,.active_window_changed e.2.1 e.2.2)) = events.map fun _ => [] := by
  induction events with
  | nil => rfl
  | cons head events ih => simpa [WindowTrigger.executed,WindowTrigger.step,apart] using ih

/-- A trigger that has been read behaves like one that has been constructed with its rules and actions exactly where
it is not to follow the active window, or no window matches its rules. -/
theorem restored_iff (windows : Windowdef_list Data) (actions : WindowEvents) :
    (∀ events, (read windows actions).executed events = (new windows actions).executed events) ↔
      (actions.WINDOW_ACTIVATES = false ∧ actions.WINDOW_DEACTIVATES = false) ∨
        ∀ data, windows.match_ data = false := by
  constructor
  · intro same
    by_contra other
    obtain ⟨follows,reachable⟩ := not_or.mp other
    obtain ⟨data,found⟩ := not_forall.mp reachable
    rw [Bool.not_eq_false] at found
    have connected : (actions.WINDOW_ACTIVATES || actions.WINDOW_DEACTIVATES) = true := by
      cases activates : actions.WINDOW_ACTIVATES <;> cases deactivates : actions.WINDOW_DEACTIVATES <;>
        simp [activates,deactivates] at follows ⊢
    have twice := same ([(⟨true,1⟩,1,data),(⟨true,1⟩,1,data)].map fun e => (e.1,.active_window_changed e.2.1 e.2.2))
    rw [not_connected rfl] at twice
    simp only [List.map_cons,List.map_nil,WindowTrigger.executed,WindowTrigger.step,new,connected,if_true,
      active_window_changed] at twice
    cases activates : actions.WINDOW_ACTIVATES <;> cases deactivates : actions.WINDOW_DEACTIVATES <;>
      simp [activates,deactivates,found,None] at connected twice
  · rintro (⟨activates,deactivates⟩ | none) events
    · have state : read windows actions = new windows actions := by
        simp [read,new,set_window_rules,setOnWindowEvents,activates,deactivates,WindowEvents.none]
      rw [state]
    · rw [Idle.executed (t := read windows actions) ⟨none,fun _ => rfl⟩,
        Idle.executed (t := new windows actions) ⟨none,fun _ => rfl⟩]

/-- A trigger for the activation of any window is not executed once it has been read. -/
theorem read_misses_activation :
    (new [fun _ : Unit => true] ⟨false,false,true,false⟩).executed [(⟨true,5⟩,.active_window_changed 5 ())] = [[5]] ∧
      (read [fun _ : Unit => true] ⟨false,false,true,false⟩).executed [(⟨true,5⟩,.active_window_changed 5 ())] = [[]] :=
  ⟨rfl,rfl⟩

end WindowTrigger
end
end KdeWorkspace.WindowTriggers
