import Mathlib.Data.List.Basic

/-!
The commands of ksysguardd, and the message `RECONFIGURE` with which a client is to ask for the monitors anew.

A flag says that the list of the commands has changed. A command or a monitor that is removed sets it and a command
that is registered does, a monitor does not: `answered_iff` says when a client has the monitors that there are, or
has been told.
-/
namespace KdeWorkspace.MonitorCommands
open List

inductive Executor
  | printMonitors
  | exQuit
  | sensor
deriving DecidableEq, Repr

structure Command where
  command : String
  ex : Executor
  type : Option String
  isMonitor : Bool
  isLegacy : Bool
deriving DecidableEq, Repr

/-- The global state. -/
structure Daemon where
  CommandList : List Command
  ReconfigureFlag : Bool
  QuitApp : Bool
deriving DecidableEq, Repr

inductive Message
  | monitors (reply : List (String × String))
  | reconfigure
  | unknownCommand
deriving DecidableEq, Repr

namespace Daemon

def registerCommand (d : Daemon) (command : String) (ex : Executor) : Daemon :=
  { d with CommandList := d.CommandList++[⟨command,ex,none,false,false⟩], ReconfigureFlag := true }

def removeCommand (d : Daemon) (command : String) : Daemon :=
  { d with CommandList := d.CommandList.filter fun cmd => cmd.command ≠ command, ReconfigureFlag := true }

/-- A monitor is two commands, the second of which asks for its description. -/
def registerAnyMonitor (d : Daemon) (command type : String) (isLegacy : Bool) : Daemon :=
  { d with CommandList := d.CommandList++
      [⟨command,.sensor,some type,true,isLegacy⟩,⟨command++"?",.sensor,none,false,false⟩] }

def registerMonitor (d : Daemon) (command type : String) : Daemon := d.registerAnyMonitor command type false

def registerLegacyMonitor (d : Daemon) (command type : String) : Daemon := d.registerAnyMonitor command type true

def removeMonitor (d : Daemon) (command : String) : Daemon := (d.removeCommand command).removeCommand (command++"?")

/-- The monitors that `printMonitors` lists. -/
def monitors (d : Daemon) : List (String × String) :=
  (d.CommandList.filter fun cmd => cmd.isMonitor && !cmd.isLegacy).map fun cmd => (cmd.command,cmd.type.getD "")

end Daemon

/-- What a module calls. -/
inductive Call
  | registerCommand (command : String)
  | removeCommand (command : String)
  | registerMonitor (command type : String)
  | registerLegacyMonitor (command type : String)
  | removeMonitor (command : String)
deriving DecidableEq, Repr

namespace Daemon

def call (d : Daemon) : Call → Daemon
  | .registerCommand command => d.registerCommand command .sensor
  | .removeCommand command => d.removeCommand command
  | .registerMonitor command type => d.registerMonitor command type
  | .registerLegacyMonitor command type => d.registerLegacyMonitor command type
  | .removeMonitor command => d.removeMonitor command

/-- The command is what is in front of the first blank. -/
def word (command : String) : String := String.ofList (command.toList.takeWhile fun c => c ≠ ' ' && c ≠ '\t')

def find (d : Daemon) (command : String) : Option Command := d.CommandList.find? fun cmd => cmd.command = word command

/-- The executor of a command, where `inside` is what an update of the module and the module itself call. -/
def execute (d : Daemon) (inside : List Call) : Executor → Daemon × List Message
  | .printMonitors => ({ d with ReconfigureFlag := false },[.monitors d.monitors])
  | .exQuit => ({ d with QuitApp := true },[])
  | .sensor => (inside.foldl call d,[])

def executeCommand (d : Daemon) (command : String) (inside : List Call) : Daemon × List Message :=
  if word command = "" then (d,[])
  else
    match d.find command with
    | some cmd =>
      let (d,messages) := d.execute inside cmd.ex
      if d.ReconfigureFlag then ({ d with ReconfigureFlag := false },messages++[.reconfigure]) else (d,messages)
    | none => (d,[.unknownCommand])

/-- What the modules register at the start. -/
def initModules (RunAsDaemon : Bool) (calls : List Call) : Daemon :=
  let d := (⟨[],false,false⟩ : Daemon).registerCommand "monitors" .printMonitors
  let d := if RunAsDaemon then d else d.registerCommand "quit" .exQuit
  { calls.foldl call d with ReconfigureFlag := false }

end Daemon

/-- The daemon and its client: what it has got as the monitors, whether it has been told since then to ask again, and
    what the modules have called since then. -/
structure Session where
  daemon : Daemon
  reply : Option (List (String × String))
  told : Bool
  calls : List Call

inductive Event
  | call (call : Call)
  | command (command : String) (inside : List Call)

namespace Session

def receive (s : Session) : Message → Session
  | .monitors reply => { s with reply := some reply, told := false, calls := [] }
  | .reconfigure => { s with told := true }
  | .unknownCommand => s

/-- What a known command makes the modules call. -/
def called (s : Session) (command : String) (inside : List Call) : List Call :=
  if Daemon.word command = "" then []
  else
    match s.daemon.find command with
    | some cmd => if cmd.ex = .sensor then inside else []
    | none => []

def step (s : Session) : Event → Session
  | .call call => { s with daemon := s.daemon.call call, calls := s.calls++[call] }
  | .command command inside =>
    let (daemon,messages) := s.daemon.executeCommand command inside
    messages.foldl receive { s with daemon := daemon, calls := s.calls++s.called command inside }

def run (s : Session) (events : List Event) : Session := events.foldl step s

def start (RunAsDaemon : Bool) (calls : List Call) : Session := ⟨.initModules RunAsDaemon calls,none,false,[]⟩

/-- Whether the word of a command is one of those that are registered. -/
def Known (s : Session) (command : String) : Prop := Daemon.word command ≠ "" ∧ (s.daemon.find command).isSome

end Session

/-- Whether a call sets the flag. -/
def Call.notifies : Call → Bool
  | .registerCommand _ | .removeCommand _ | .removeMonitor _ => true
  | .registerMonitor _ _ | .registerLegacyMonitor _ _ => false

/-- The monitors that a call adds to the list. -/
def Call.adds : Call → List (String × String)
  | .registerMonitor command type => [(command,type)]
  | _ => []

theorem Daemon.call_flag (d : Daemon) (call : Call) :
    (d.call call).ReconfigureFlag = (d.ReconfigureFlag || call.notifies) := by
  cases call <;> simp [Daemon.call,Daemon.registerCommand,Daemon.removeCommand,Daemon.registerMonitor,
    Daemon.registerLegacyMonitor,Daemon.registerAnyMonitor,Daemon.removeMonitor,Call.notifies]

theorem Daemon.call_monitors (d : Daemon) {call : Call} (silent : call.notifies = false) :
    (d.call call).monitors = d.monitors++call.adds := by
  cases call with
  | registerMonitor command type =>
    simp [Daemon.call,Daemon.registerMonitor,Daemon.registerAnyMonitor,Daemon.monitors,Call.adds]
  | registerLegacyMonitor command type =>
    simp [Daemon.call,Daemon.registerLegacyMonitor,Daemon.registerAnyMonitor,Daemon.monitors,Call.adds]
  | _ => simp [Call.notifies] at silent

namespace Session

variable {s : Session}

/-- What is known of the calls since the last reply: the flag or the message for those that set it, and the monitors
    that are new as long as none has. -/
structure Kept (s : Session) : Prop where
  told : s.reply ≠ none → (s.told || s.daemon.ReconfigureFlag) = s.calls.any Call.notifies
  monitors : ∀ reply, s.reply = some reply → s.calls.any Call.notifies = false →
    ∀ m, m ∈ s.daemon.monitors ↔ m ∈ reply ∨ m ∈ s.calls.flatMap Call.adds

theorem Kept.call (kept : s.Kept) (call : Call) :
    Kept { s with daemon := s.daemon.call call, calls := s.calls++[call] } := by
  refine ⟨fun replied => ?_,fun reply replied silent m => ?_⟩
  · have before := kept.told replied
    simp only [any_append,any_cons,any_nil,Bool.or_false,Daemon.call_flag,← before,Bool.or_assoc]
  · simp only [any_append,any_cons,any_nil,Bool.or_false,Bool.or_eq_false_iff] at silent
    have before := kept.monitors reply replied silent.1 m
    simp only [s.daemon.call_monitors silent.2,mem_append,before,flatMap_append,flatMap_cons,
      flatMap_nil,append_nil,or_assoc]

theorem Kept.calls (kept : s.Kept) (inside : List Call) :
    Kept { s with daemon := inside.foldl Daemon.call s.daemon, calls := s.calls++inside } := by
  induction inside generalizing s with
  | nil => simpa using kept
  | cons call inside ih => simpa using ih (kept.call call)

theorem Kept.notified (kept : s.Kept) :
    Kept { s with daemon := { s.daemon with ReconfigureFlag := false }, told := s.told || s.daemon.ReconfigureFlag } := by
  refine ⟨fun replied => ?_,kept.monitors⟩
  simpa using kept.told replied

theorem step_known {command : String} (known : s.Known command) (inside : List Call) :
    (s.step (.command command inside) =
        { s with daemon := { s.daemon with ReconfigureFlag := false }, reply := some s.daemon.monitors, told := false
                 calls := [] }) ∨
      ∃ (called : List Call) (quit : Bool), s.step (.command command inside) =
        { s with
          daemon := { called.foldl Daemon.call s.daemon with ReconfigureFlag := false, QuitApp := quit }
          told := s.told || (called.foldl Daemon.call s.daemon).ReconfigureFlag, calls := s.calls++called } := by
  obtain ⟨word,found⟩ := known
  obtain ⟨cmd,found⟩ := Option.isSome_iff_exists.mp found
  cases ex : cmd.ex with
  | printMonitors =>
    left
    simp [step,Daemon.executeCommand,word,found,Daemon.execute,ex,receive]
  | exQuit =>
    right
    refine ⟨[],true,?_⟩
    cases flag : s.daemon.ReconfigureFlag <;>
      simp [step,Daemon.executeCommand,word,found,Daemon.execute,ex,receive,called,flag]
  | sensor =>
    right
    refine ⟨inside,(inside.foldl Daemon.call s.daemon).QuitApp,?_⟩
    cases flag : (inside.foldl Daemon.call s.daemon).ReconfigureFlag
    · simp [step,Daemon.executeCommand,word,found,Daemon.execute,ex,called,flag]
      rw [← flag]
    · simp [step,Daemon.executeCommand,word,found,Daemon.execute,ex,receive,called,flag]

theorem step_unknown {command : String} (unknown : ¬s.Known command) (inside : List Call) :
    s.step (.command command inside) = s := by
  by_cases word : Daemon.word command = ""
  · simp [step,Daemon.executeCommand,word,called]
  · have found : s.daemon.find command = none := by
      by_contra some_
      exact unknown ⟨word,Option.isSome_iff_ne_none.mpr some_⟩
    simp [step,Daemon.executeCommand,word,found,called,receive]

theorem Kept.step (kept : s.Kept) (event : Event) : (s.step event).Kept := by
  cases event with
  | call call => exact kept.call call
  | command command inside =>
    by_cases known : s.Known command
    · rcases step_known known inside with listed | ⟨called,quit,state⟩
      · rw [listed]
        refine ⟨fun _ => rfl,?_⟩
        rintro _ ⟨⟩ _ m
        simp [Daemon.monitors]
      · rw [state]
        have after := (kept.calls called).notified
        exact ⟨after.told,after.monitors⟩
    · rwa [step_unknown known]

theorem Kept.run (kept : s.Kept) (events : List Event) : (s.run events).Kept := by
  induction events generalizing s with
  | nil => exact kept
  | cons event events ih => exact ih (kept.step event)

/-- The client has the monitors that there are, or it has been told to ask again. -/
def Fresh (s : Session) : Prop := ∀ reply, s.reply = some reply → (∀ m, m ∈ s.daemon.monitors ↔ m ∈ reply) ∨ s.told

/-- Since the last reply a command has been registered or something removed, or no monitor has been registered that
    is not in the reply. -/
def Announced (s : Session) : Prop :=
  ∀ reply, s.reply = some reply → s.calls.any Call.notifies ∨ ∀ call ∈ s.calls, ∀ m ∈ call.adds, m ∈ reply

/-- After a known command the client has the monitors that there are, or has been told to ask again, exactly where a
call has set the flag or nothing new has been registered. -/
theorem answered_iff (RunAsDaemon : Bool) (calls : List Call) (events : List Event) {command : String}
    (known : ((start RunAsDaemon calls).run events).Known command) (inside : List Call) :
    (((start RunAsDaemon calls).run events).step (.command command inside)).Fresh ↔
      (((start RunAsDaemon calls).run events).step (.command command inside)).Announced := by
  have kept : ((start RunAsDaemon calls).run events).Kept := by
    refine Kept.run ⟨fun replied => absurd rfl replied,?_⟩ events
    rintro _ ⟨⟩
  have after := kept.step (.command command inside)
  have cleared : (((start RunAsDaemon calls).run events).step (.command command inside)).daemon.ReconfigureFlag = false := by
    rcases step_known known inside with listed | ⟨called,quit,state⟩
    · rw [listed]
    · rw [state]
  generalize ((start RunAsDaemon calls).run events).step (.command command inside) = s at after cleared ⊢
  refine forall_congr' fun reply => forall_congr' fun replied => ?_
  have told := after.told (by simp [replied])
  rw [cleared,Bool.or_false] at told
  rw [told]
  cases silent : s.calls.any Call.notifies with
  | true => simp
  | false =>
    have monitors := after.monitors reply replied silent
    simp only [monitors,Bool.false_eq_true,or_false,false_or]
    constructor
    · intro same call member m adds
      exact (same m).mp (Or.inr (mem_flatMap.mpr ⟨call,member,adds⟩))
    · intro listed m
      refine ⟨fun either => either.elim id fun new => ?_,Or.inl⟩
      obtain ⟨call,member,adds⟩ := mem_flatMap.mp new
      exact listed call member m adds

/-- A module registers a monitor that the client has not heard of. -/
theorem answered_registration :
    ((((start true []).run [.command "monitors" [],.call (.registerMonitor "cpu" "integer")]).step
        (.command "monitors" [])).Fresh ↔
      (((start true []).run [.command "monitors" [],.call (.registerMonitor "cpu" "integer")]).step
        (.command "monitors" [])).Announced) :=
  answered_iff true [] [.command "monitors" [],.call (.registerMonitor "cpu" "integer")]
    ⟨by decide,by decide⟩ []

/-- A monitor that only appears is never announced. -/
theorem new_monitor_unannounced :
    ((start true []).run [.command "monitors" [],.call (.registerMonitor "cpu" "integer")]).Known "cpu" ∧
      ¬(((start true []).run [.command "monitors" [],.call (.registerMonitor "cpu" "integer")]).step
        (.command "cpu" [])).Fresh := by
  refine ⟨⟨by decide,by decide⟩,fun fresh => ?_⟩
  have stale := fresh [] (by decide)
  have there : ("cpu","integer") ∈ (((start true []).run [.command "monitors" [],
      .call (.registerMonitor "cpu" "integer")]).step (.command "cpu" [])).daemon.monitors := by decide
  have told : (((start true []).run [.command "monitors" [],
      .call (.registerMonitor "cpu" "integer")]).step (.command "cpu" [])).told = false := by decide
  rcases stale with same | notified
  · exact absurd ((same _).mp there) not_mem_nil
  · rw [told] at notified
    cases notified

end Session
end KdeWorkspace.MonitorCommands
