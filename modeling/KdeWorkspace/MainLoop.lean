import KdeWorkspace.ShutdownRights

/-!
The main loop of kdm and the shutdown at its end (`mainLoop`, `stoppen`, `main`).

A request for a shutdown waits until its start, then the daemon is stopping: displays
without a session are stopped, and the loop goes on while some display is running.
Where the loop is left with a request, the machine is shut down. `mainLoop_not_early`
says when that is not before the start of the last request that was accepted.

What starting the displays does to them is left open, as are the forks of servers.
-/
namespace KdeWorkspace.MainLoop

open ControlCommands ShutdownRights

def anyRunningDisplays (m : Manager) : Bool :=
  m.displays.any fun d => d.status ≠ .notRunning && d.status ≠ .textMode && d.status ≠ .reserve

def anyDisplaysLeft (m : Manager) : Bool := !m.displays.isEmpty

/-- The condition of the loop. -/
def goesOn (m : Manager) : Bool := m.listenSockets || if m.stopping then anyRunningDisplays m else anyDisplaysLeft m

def stopInactiveDisplay (m : Manager) (d : Display) : Manager :=
  if d.status ≠ .remoteLogin ∧ d.userSess < 0 then m.stopDisplay d else m

def stoppen (force : Bool) (m : Manager) : Manager :=
  let m := { m with listenSockets := false }
  { m.displays.foldl (if force then Manager.stopDisplay else stopInactiveDisplay) m with stopping := true }

def wouldShutdown (sys : System) (m : Manager) : Bool :=
  match m.sdRec.force with
  | .SHUT_FORCE => true
  | .SHUT_FORCEMY => !m.anyUserLogins sys m.sdRec.uid
  | _ => !m.anyUserLogins sys (-1)

/-- What the loop does about the pending request. -/
def checkShutdown (sys : System) (m : Manager) : Manager :=
  if m.sdRec.how = .none then m
  else if m.sdRec.start ≠ TO_INF ∧ sys.now < m.sdRec.start then m
  else
    let m := { m with sdRec := { m.sdRec with start := TO_INF } }
    if sys.now ≥ m.sdRec.timeout then
      let m := { m with sdRec := { m.sdRec with timeout := TO_INF } }
      if wouldShutdown sys m then stoppen true m else m.cancelShutdown sys
    else stoppen false m

/-- The exit codes of a session's process. -/
inductive ExitCode
  | EX_REMOTE
  | EX_NORMAL
  | EX_RESERVE
  | EX_OPENFAILED_DPY
  | SIGTERM
  | EX_AL_RESERVER_DPY
  | EX_RESERVER_DPY
  | EX_UNMANAGE_DPY
  | other
deriving Repr, DecidableEq

inductive ServerCmd
  | XS_KEEP
  | XS_RESTART
  | XS_RETRY
deriving Repr, DecidableEq

/-- The process of the display at the address, or its server, is gone. A display is given up when it failed too often
    or too soon; where the server was still being started, `startup` says whether that is given up. -/
inductive Exit
  | session (addr : Nat) (code : ExitCode) (givenUp terminateServer : Bool) (server : Int)
  | server (addr : Nat) (startup : Option Bool) (server : Int)

/-- A display without its process, as `exitDisplay` finds it. -/
def exitDisplay (m : Manager) (d : Display) (endState : EndState) (serverCmd : ServerCmd)
    (givenUp terminateServer : Bool) (server : Int) : Manager :=
  let serverCmd := if d.status = .raiser then .XS_KEEP else serverCmd
  let m := m.setDisplay d.addr fun d => { d with userSess := -1 }
  let endState := if m.sdRec.how ≠ .none ∧ m.sdRec.start = TO_INF then .DS_REMOVE else endState
  if d.status = .zombie then m.rStopDisplay d d.zstatus server
  else if m.stopping then m.stopDisplay d
  else if endState ≠ .DS_RESTART ∨ d.displayType.lifetime = .dTransient then m.rStopDisplay d endState server
  else if serverCmd = .XS_RETRY ∧ givenUp then m.stopDisplay d
  else if d.serverPid ≠ -1 ∧ (serverCmd ≠ .XS_KEEP ∨ terminateServer) then
    m.setDisplay d.addr fun d => { d with status := .phoenix }
  else m.setDisplay d.addr fun d => { d with status := .notRunning }

def reapSession (m : Manager) (d : Display) (code : ExitCode) (givenUp terminateServer : Bool) (server : Int) :
    Manager :=
  let m := m.setDisplay d.addr fun d => { d with pid := -1 }
  let exit (endState : EndState) (serverCmd : ServerCmd) : Manager :=
    exitDisplay m { d with pid := -1 } endState serverCmd givenUp terminateServer server
  match code with
  | .EX_REMOTE => exit .DS_REMOTE .XS_KEEP
  | .EX_NORMAL => if d.displayType.lifetime = .dReserve then exit .DS_RESERVE .XS_KEEP else exit .DS_RESTART .XS_KEEP
  | .EX_RESERVE => exit .DS_RESERVE .XS_KEEP
  | .EX_OPENFAILED_DPY | .SIGTERM => exit .DS_RESTART .XS_RETRY
  | .EX_AL_RESERVER_DPY | .EX_RESERVER_DPY => exit .DS_RESTART .XS_RESTART
  | .EX_UNMANAGE_DPY | .other => exit .DS_REMOVE .XS_KEEP

def reapServer (m : Manager) (d : Display) (startup : Option Bool) (server : Int) : Manager :=
  let m := m.setDisplay d.addr fun d => { d with serverPid := -1 }
  let d := { d with serverPid := -1 }
  match d.status with
  | .zombie =>
    let m := m.setDisplay d.addr fun d => { d with serverVT := if d.zstatus ≠ .DS_REMOTE then 0 else d.serverVT }
    m.rStopDisplay d d.zstatus server
  | .phoenix => m.setDisplay d.addr fun d => { d with status := .notRunning }
  | .remoteLogin => m.setDisplay d.addr fun d =>
      { d with status := if d.displayType.lifetime = .dReserve then .reserve else .notRunning }
  | .running => if startup = some true then m.stopDisplay d else m
  | .raiser | .notRunning | .textMode | .reserve => m

def reap (m : Manager) : Exit → Manager
  | .session addr code givenUp terminateServer server =>
    match displayAt m addr with
    | some d => reapSession m d code givenUp terminateServer server
    | none => m
  | .server addr startup server =>
    match displayAt m addr with
    | some d => reapServer m d startup server
    | none => m

/-- `reapChildren`, and the rescan that follows it. -/
def reapChildren (m : Manager) (exits : List Exit) (rescan : Option Config) : Manager :=
  let m := exits.foldl reap m
  if m.stopping then m else m.rescanConfigs rescan

/-- A request that became the global one: its start as it was accepted, and whether it was cancelled since. -/
structure Request where
  start : Int
  cancelled : Bool
deriving Repr, DecidableEq

/-- The daemon with its clock. What was requested last is not kept by the code, which
    overwrites the start of a request that is due. -/
structure Daemon where
  manager : Manager
  now : Int
  last : Option Request

/-- What starting and watching servers does to a display; a new session process
    forgets the request of the one before. -/
structure Change where
  status : DisplayStatus
  pid : Int
  serverPid : Int
  serverVT : Int
  forked : Bool

def Change.apply (c : Change) (d : Display) : Display :=
  { d with
    status := c.status
    pid := c.pid
    serverPid := c.serverPid
    serverVT := c.serverVT
    sdRec := if c.forked then { d.sdRec with how := .none } else d.sdRec }

/-- The displays after a change, which removes some of them. -/
def changed (change : Display → Option Change) (displays : List Display) : List Display :=
  displays.filterMap fun d => (change d).map fun c => c.apply d

/-- What the loop is woken by. -/
inductive Event
  | timeout
  | command (addr : Option Nat) (line : String)
  | user (addr : Nat) (uid : Int)
  | unUser (addr : Nat)
  | exits (exits : List Exit) (rescan : Option Config)

/-- What happens in one pass of the loop: what `startDisplays` does, the time until
    something happens, what the timers of servers and terminals do, and the event. -/
structure Pass where
  sys : System
  started : Display → Option Change
  elapsed : Nat
  timers : Display → Option Change
  event : Event

/-- The request that a line makes, where it is accepted. -/
def accepted (sys : System) (m : Manager) (d : Option Display) (line : String) : Option SdRec :=
  if (arguments line).headD "" = "shutdown" ∧ (processCtrl sys m d line).2 = done then
    (parseShutdown sys d.isSome (arguments line)).toOption
  else none

/-- The end of the session promotes the request of the display. -/
def Promotes (sys : System) (m : Manager) (d : Display) : Prop :=
  d.sdRec.how ≠ .none ∧ (unUser sys m d).2 = false ∧
    ¬ (m.sdRec.how ≠ .none ∧ m.sdRec.force = .SHUT_FORCE ∧ overrideForbidden m.sdRec d d.sdRec.uid)

instance (sys : System) (m : Manager) (d : Display) : Decidable (Promotes sys m d) :=
  inferInstanceAs (Decidable (_ ∧ _))

def Request.cancel (r : Request) : Request := { r with cancelled := true }

/-- The last request after an accepted one; one without a start waits for the end of the session on its display. -/
def heard (last : Option Request) (onDisplay : Bool) (sdr : SdRec) : Option Request :=
  if onDisplay ∧ sdr.start = 0 then last
  else if sdr.how = .none then last.map Request.cancel
  else some ⟨sdr.start,false⟩

namespace Daemon

def command (s : Daemon) (sys : System) (d : Option Display) (line : String) : Daemon :=
  { s with
    manager := (processCtrl sys s.manager d line).1
    last := match accepted sys s.manager d line with
      | none => s.last
      | some sdr => heard s.last d.isSome sdr }

def unUser (s : Daemon) (sys : System) (d : Display) : Daemon :=
  { s with
    manager := (ShutdownRights.unUser sys s.manager d).1
    last := if Promotes sys s.manager d then some ⟨d.sdRec.start,false⟩ else s.last }

/-- The global socket, or that of the display at the address. -/
def socket (s : Daemon) : Option Nat → Option (Option Display)
  | none => some none
  | some addr => (displayAt s.manager addr).map some

def handle (s : Daemon) (sys : System) : Event → Daemon
  | .timeout => s
  | .command addr line =>
    match s.socket addr with
    | some d => s.command sys d line
    | none => s
  | .user addr uid => { s with manager := s.manager.setDisplay addr fun d => { d with userSess := uid } }
  | .unUser addr =>
    match displayAt s.manager addr with
    | some d => s.unUser sys d
    | none => s
  | .exits exits rescan => { s with manager := reapChildren s.manager exits rescan }

def changeDisplays (s : Daemon) (change : Display → Option Change) : Daemon :=
  { s with manager := { s.manager with displays := changed change s.manager.displays } }

/-- What the loop does before it waits. -/
def prepare (s : Daemon) (p : Pass) : Daemon :=
  let s := if s.manager.stopping then s else s.changeDisplays p.started
  let m := checkShutdown { p.sys with now := s.now } s.manager
  { s with
    manager := m
    last := if s.manager.sdRec.how ≠ .none ∧ m.sdRec.how = .none then s.last.map Request.cancel else s.last }

/-- What the loop waited for, just before the event is handled. -/
def wake (s : Daemon) (p : Pass) : Daemon :=
  let s := s.prepare p
  { s with now := s.now+p.elapsed }.changeDisplays p.timers

def pass (s : Daemon) (p : Pass) : Daemon :=
  let s := s.wake p
  s.handle { p.sys with now := s.now } p.event

end Daemon

/-- The daemon when the loop is left. -/
def mainLoop (s : Daemon) : List Pass → Option Daemon
  | [] => if goesOn s.manager then none else some s
  | p :: passes => if goesOn s.manager then mainLoop (s.pass p) passes else some s

/-- No display and nobody else has requested anything. -/
structure Quiet (m m' : Manager) : Prop where
  displays : ∀ d' ∈ m'.displays, d'.sdRec.how ≠ .none → ∃ d ∈ m.displays, d.sdRec = d'.sdRec
  sdRec : m'.sdRec = m.sdRec
  stopping : m'.stopping = m.stopping

namespace Quiet

variable {m m' : Manager}

theorem refl (m : Manager) : Quiet m m := ⟨fun d within _ => ⟨d,within,rfl⟩,rfl,rfl⟩

theorem trans {m'' : Manager} (first : Quiet m m') (second : Quiet m' m'') : Quiet m m'' := by
  refine ⟨?_,second.sdRec.trans first.sdRec,second.stopping.trans first.stopping⟩
  intro d within pending
  obtain ⟨d',within',same'⟩ := second.displays d within pending
  obtain ⟨before,listed,same⟩ := first.displays d' within' (same' ▸ pending)
  exact ⟨before,listed,same.trans same'⟩

theorem of_sublist (fewer : ∀ d' ∈ m'.displays, ∃ d ∈ m.displays, d.sdRec = d'.sdRec) (sdRec : m'.sdRec = m.sdRec)
    (stopping : m'.stopping = m.stopping) : Quiet m m' := ⟨fun d within _ => fewer d within,sdRec,stopping⟩

theorem setDisplay (m : Manager) (addr : Nat) {f : Display → Display} (keeps : ∀ d, (f d).sdRec = d.sdRec) :
    Quiet m (m.setDisplay addr f) := by
  refine of_sublist ?_ rfl rfl
  intro d within
  obtain ⟨before,listed,same⟩ := List.mem_map.mp within
  subst same
  refine ⟨before,listed,?_⟩
  split_ifs
  · exact (keeps before).symm
  · rfl

theorem removeDisplay (m : Manager) (addr : Nat) : Quiet m (m.removeDisplay addr) :=
  of_sublist (fun d within => ⟨d,List.mem_of_mem_eraseP within,rfl⟩) rfl rfl

theorem newDisplay (m : Manager) (name : String) : Quiet m (m.newDisplay name).1 := by
  refine ⟨?_,rfl,rfl⟩
  intro d within pending
  rcases List.mem_cons.mp within with fresh | within
  · subst fresh
    exact absurd rfl pending
  · exact ⟨d,within,rfl⟩

theorem foldl {ι : Type} {f : Manager → ι → Manager} (each : ∀ m i, Quiet m (f m i)) (list : List ι) (m : Manager) :
    Quiet m (list.foldl f m) := by
  induction list generalizing m with
  | nil => exact .refl m
  | cons i list ih => exact (each m i).trans (ih _)

theorem addServer (lifetime : Lifetime) (m : Manager) (server : String × Option String) :
    Quiet m (m.addServer lifetime server) := by
  unfold Manager.addServer
  cases m.findDisplayByName server.1 with
  | some d => exact .setDisplay m _ fun _ => rfl
  | none => exact (newDisplay m server.1).trans (.setDisplay _ _ fun _ => rfl)

theorem rescanConfigs (m : Manager) (config : Option Config) : Quiet m (m.rescanConfigs config) := by
  unfold Manager.rescanConfigs
  cases config with
  | none => exact .refl m
  | some config =>
    have read : Quiet m { m with
        listenSockets := config.listens
        fifoAllowShutdown := config.fifoAllowShutdown
        fifoAllowNuke := config.fifoAllowNuke } := of_sublist (fun d within => ⟨d,within,rfl⟩) rfl rfl
    exact read.trans ((foldl (addServer .dPermanent) _ _).trans (foldl (addServer .dReserve) _ _))

theorem rStopDisplay (m : Manager) (d : Display) (endState : EndState) (server : Int) :
    Quiet m (m.rStopDisplay d endState server) := by
  unfold Manager.rStopDisplay
  by_cases running : d.serverPid ≠ -1 ∨ d.pid ≠ -1
  · rw [if_pos running]
    exact .setDisplay m _ fun _ => rfl
  · rw [if_neg running]
    cases endState with
    | DS_RESERVE | DS_REMOTE => exact .setDisplay m _ fun _ => rfl
    | DS_RESTART | DS_REMOVE => exact .removeDisplay m _

theorem stopDisplay (m : Manager) (d : Display) : Quiet m (m.stopDisplay d) := rStopDisplay m d _ _

theorem exitDisplay (m : Manager) (d : Display) (endState : EndState) (serverCmd : ServerCmd)
    (givenUp terminateServer : Bool) (server : Int) :
    Quiet m (exitDisplay m d endState serverCmd givenUp terminateServer server) := by
  unfold MainLoop.exitDisplay
  refine trans (.setDisplay m d.addr (f := fun d => { d with userSess := -1 }) fun _ => rfl) ?_
  dsimp only
  split_ifs
  all_goals first
    | exact .rStopDisplay ..
    | exact .stopDisplay ..
    | exact .setDisplay _ _ fun _ => rfl

theorem reapSession (m : Manager) (d : Display) (code : ExitCode) (givenUp terminateServer : Bool) (server : Int) :
    Quiet m (reapSession m d code givenUp terminateServer server) := by
  refine trans (.setDisplay m d.addr (f := fun d => { d with pid := -1 }) fun _ => rfl) ?_
  cases code with
  | EX_NORMAL =>
    simp only [MainLoop.reapSession]
    split_ifs <;> exact .exitDisplay ..
  | _ => exact .exitDisplay ..

theorem reapServer (m : Manager) (d : Display) (startup : Option Bool) (server : Int) :
    Quiet m (reapServer m d startup server) := by
  refine trans (.setDisplay m d.addr (f := fun d => { d with serverPid := -1 }) fun _ => rfl) ?_
  simp only [MainLoop.reapServer]
  split
  · refine trans (.setDisplay _ d.addr
      (f := fun d => { d with serverVT := if d.zstatus ≠ .DS_REMOTE then 0 else d.serverVT }) fun _ => rfl) ?_
    exact .rStopDisplay ..
  · exact .setDisplay _ _ fun _ => rfl
  · exact .setDisplay _ _ fun _ => rfl
  · split_ifs
    · exact .stopDisplay ..
    · exact .refl _
  all_goals exact .refl _

theorem reap (m : Manager) (exit : Exit) : Quiet m (reap m exit) := by
  cases exit with
  | session addr =>
    simp only [MainLoop.reap]
    split
    · exact .reapSession ..
    · exact .refl m
  | server addr =>
    simp only [MainLoop.reap]
    split
    · exact .reapServer ..
    · exact .refl m

theorem reapChildren (m : Manager) (exits : List Exit) (rescan : Option Config) :
    Quiet m (reapChildren m exits rescan) := by
  refine trans (foldl reap exits m) ?_
  unfold MainLoop.reapChildren
  dsimp only
  split_ifs
  · exact .refl _
  · exact .rescanConfigs ..

end Quiet

theorem ctrlReserve_quiet (m : Manager) (d : Option Display) (ar : List String) : Quiet m (ctrlReserve m d ar).1 := by
  unfold ctrlReserve
  split_ifs
  · exact .refl m
  · exact .refl m
  · cases started : m.startReserveDisplay with
    | none => exact .refl m
    | some m' =>
      obtain ⟨rd,_,changed⟩ := Option.map_eq_some_iff.mp started
      subst changed
      exact .setDisplay m _ fun _ => rfl

theorem setHist_quiet (m : Manager) (name : String) (f : DispHist → DispHist) : Quiet m (m.setHist name f) :=
  .of_sublist (fun d within => ⟨d,within,rfl⟩) rfl rfl

theorem ctrlLock_quiet (m : Manager) (d : Display) (ar : List String) (lock : Bool) :
    Quiet m (ctrlLock m d ar lock).1 := by
  unfold ctrlLock
  split_ifs
  · exact .refl m
  · exact setHist_quiet ..

theorem ctrlSuicide_quiet (m : Manager) (d : Display) (ar : List String) : Quiet m (ctrlSuicide m d ar).1 := by
  unfold ctrlSuicide
  split_ifs
  · exact .refl m
  · exact .setDisplay m _ fun _ => rfl
  · exact .refl m

theorem ctrlLogin_quiet (m : Manager) (ar : List String) : Quiet m (ctrlLogin m ar).1 := by
  unfold ctrlLogin
  split
  · split
    · exact .refl m
    · split_ifs
      · exact .refl m
      · exact (setHist_quiet ..).trans (.setDisplay _ _ fun _ => rfl)
  · exact .refl m

theorem ctrlResume_quiet (m : Manager) (ar : List String) : Quiet m (ctrlResume m ar).1 := by
  unfold ctrlResume
  split_ifs
  · exact .refl m
  · refine .of_sublist ?_ rfl rfl
    intro d within
    obtain ⟨before,listed,same⟩ := List.mem_map.mp within
    subst same
    refine ⟨before,listed,?_⟩
    unfold Manager.wakeDisplay
    split_ifs <;> rfl

theorem ctrlManage_quiet (m : Manager) (ar : List String) : Quiet m (ctrlManage m ar).1 := by
  unfold ctrlManage
  split
  · exact .refl m
  · split_ifs
    · exact .refl m
    · exact .refl m
    · rename_i name rest _ _ _
      have created : Quiet m ((m.newDisplay name).1.setDisplay (m.newDisplay name).2
          fun d => { d with displayType := onDemand }) :=
        (Quiet.newDisplay m name).trans (.setDisplay _ _ fun _ => rfl)
      have classed (class2 : String) : Quiet m (((m.newDisplay name).1.setDisplay (m.newDisplay name).2
          fun d => { d with displayType := onDemand }).setDisplay (m.newDisplay name).2
          fun d => { d with class2 := if class2 = "" then none else some class2 }) :=
        created.trans (.setDisplay _ _ fun _ => rfl)
      match rest with
      | [] => exact created
      | [class2] => exact classed class2
      | [class2,_] => exact classed class2
      | class2 :: _ :: _ :: _ :: _ => exact (classed class2).trans (.removeDisplay ..)
      | [class2,authorization,data] =>
        dsimp only
        split
        · exact (classed class2).trans (.removeDisplay ..)
        · exact (classed class2).trans (.removeDisplay ..)
        · exact (classed class2).trans (.setDisplay _ _ fun _ => rfl)

theorem ctrlUnmanage_quiet (m : Manager) (ar : List String) : Quiet m (ctrlUnmanage m ar).1 := by
  unfold ctrlUnmanage
  split
  · exact .refl m
  · exact .refl m
  · split
    · exact .refl m
    · split_ifs
      · exact .refl m
      · exact .stopDisplay ..

/-- What a line does to the requests, after what it asks for where it is accepted. -/
inductive Heard (m : Manager) (onDisplay : Bool) : Option SdRec → Manager → Prop
  | quiet {m' : Manager} (quiet : Quiet m m') : Heard m onDisplay none m'
  | waits {sdr : SdRec} {m' : Manager} (waits : onDisplay = true ∧ sdr.start = 0)
      (displays : ∀ d' ∈ m'.displays, d'.sdRec.how ≠ .none → d'.sdRec.start = 0 ∨ ∃ d ∈ m.displays, d.sdRec = d'.sdRec)
      (sdRec : m'.sdRec = m.sdRec) (stopping : m'.stopping = m.stopping) : Heard m onDisplay (some sdr) m'
  | cancelled {sdr : SdRec} {m' : Manager} (now : ¬ (onDisplay = true ∧ sdr.start = 0)) (how : sdr.how = .none)
      (displays : ∀ d' ∈ m'.displays, d'.sdRec.how ≠ .none → ∃ d ∈ m.displays, d.sdRec = d'.sdRec)
      (sdRec : m'.sdRec.how = .none) : Heard m onDisplay (some sdr) m'
  | installed (sdr : SdRec) (now : ¬ (onDisplay = true ∧ sdr.start = 0)) (how : sdr.how ≠ .none) (uid : Int) :
      Heard m onDisplay (some sdr) { m with sdRec := { sdr with uid := uid } }

theorem cancelShutdown_noted (sys : System) (m : Manager) : ∀ d' ∈ (m.cancelShutdown sys).displays,
    d'.sdRec.how ≠ .none → ∃ d ∈ m.displays, d.sdRec = d'.sdRec :=
  (Quiet.rescanConfigs { m with sdRec := { m.sdRec with how := .none, osname := none }, stopping := false }
    sys.config).displays

theorem cancelShutdown_how (sys : System) (m : Manager) : (m.cancelShutdown sys).sdRec.how = .none := by
  rw [cancelShutdown_sdRec]

theorem shutdownOnDisplay_heard (sys : System) (m : Manager) (d : Display) (sdr : SdRec) :
    Heard m true (if (shutdownOnDisplay sys m d sdr).2 = done then some sdr else none)
      (shutdownOnDisplay sys m d sdr).1 := by
  have spec := shutdownOnDisplay_spec sys m d sdr
  generalize shutdownOnDisplay sys m d sdr = result at spec ⊢
  have stored (start : sdr.start = 0) : Heard m true (some sdr)
      (m.setDisplay d.addr fun d' => { d' with sdRec := { sdr with uid := sessionUser d } }) := by
    refine .waits ⟨rfl,start⟩ ?_ rfl rfl
    intro d' within _
    obtain ⟨before,listed,same⟩ := List.mem_map.mp within
    subst same
    split_ifs
    · exact .inl start
    · exact .inr ⟨before,listed,rfl⟩
  cases spec with
  | refused => exact .quiet (.refl m)
  | cancelLocal allowed how start => exact stored start
  | requestLocal allowed overrides nuke how start => exact stored start
  | cancelGlobal allowed overrides how start =>
    refine .cancelled ?_ how (cancelShutdown_noted sys m) (cancelShutdown_how sys m)
    exact fun waits => start waits.2
  | requestGlobal allowed overrides nuke how start =>
    exact .installed sdr (fun waits => start waits.2) how (sessionUser d)

theorem shutdownGlobal_heard (sys : System) (m : Manager) (sdr : SdRec) :
    Heard m false (if (shutdownGlobal sys m sdr).2 = done then some sdr else none) (shutdownGlobal sys m sdr).1 := by
  have now : ¬ ((false = true) ∧ sdr.start = 0) := by simp
  unfold shutdownGlobal
  split_ifs <;> first
    | contradiction
    | exact .quiet (.refl m)
    | exact .cancelled now ‹_› (cancelShutdown_noted sys m) (cancelShutdown_how sys m)
    | exact .installed _ now ‹_› _

/-- The request that a line of `shutdown` makes, where the answer is `done`. -/
theorem ctrlShutdown_heard (sys : System) (m : Manager) (d : Option Display) (ar : List String) :
    Heard m d.isSome (if (ctrlShutdown sys m d ar).2 = done then (parseShutdown sys d.isSome ar).toOption else none)
      (ctrlShutdown sys m d ar).1 := by
  unfold ctrlShutdown
  split
  · have status (first : String) (rest : List String) :
        (parseShutdown sys d.isSome (first :: "status" :: rest)).toOption = none := rfl
    rw [status,ite_self]
    exact .quiet (.refl m)
  · cases parsed : parseShutdown sys d.isSome ar with
    | error reply =>
      rw [Except.toOption,ite_self]
      exact .quiet (.refl m)
    | ok sdr =>
      cases d with
      | some d => exact shutdownOnDisplay_heard sys m d sdr
      | none => exact shutdownGlobal_heard sys m sdr

theorem processCtrl_heard (sys : System) (m : Manager) (d : Option Display) (line : String) :
    Heard m d.isSome (accepted sys m d line) (processCtrl sys m d line).1 := by
  by_cases command : (arguments line).headD "" = "shutdown"
  · have run : processCtrl sys m d line = ctrlShutdown sys m d (arguments line) := by
      unfold processCtrl
      dsimp only
      rw [command]
      cases d <;> rfl
    have heard := ctrlShutdown_heard sys m d (arguments line)
    rw [← run] at heard
    simpa only [accepted,command,true_and] using heard
  · have none : accepted sys m d line = none := by
      rw [accepted,if_neg]
      exact fun both => command both.1
    rw [none]
    refine .quiet ?_
    unfold processCtrl
    dsimp only
    split
    · exact .refl m
    · exact .refl m
    · exact ctrlReserve_quiet ..
    · exact .refl m
    · contradiction
    · exact .refl m
    · exact ctrlLock_quiet ..
    · exact ctrlLock_quiet ..
    · exact ctrlSuicide_quiet ..
    · exact ctrlLogin_quiet ..
    · exact ctrlResume_quiet ..
    · exact ctrlManage_quiet ..
    · exact ctrlUnmanage_quiet ..
    · exact .refl m

theorem stoppen_stops (force : Bool) (m : Manager) : (stoppen force m).stopping = true ∧
    (stoppen force m).sdRec = m.sdRec ∧
    ∀ d' ∈ (stoppen force m).displays, d'.sdRec.how ≠ .none → ∃ d ∈ m.displays, d.sdRec = d'.sdRec := by
  have inactive (m : Manager) (d : Display) : Quiet m (stopInactiveDisplay m d) := by
    unfold stopInactiveDisplay
    split_ifs
    · exact .stopDisplay m d
    · exact .refl m
  have each (m : Manager) (d : Display) :
      Quiet m ((if force then Manager.stopDisplay else stopInactiveDisplay) m d) := by
    cases force
    · exact inactive m d
    · exact .stopDisplay m d
  have all : Quiet { m with listenSockets := false } _ := Quiet.foldl each m.displays { m with listenSockets := false }
  exact ⟨rfl,all.sdRec,all.displays⟩

/-- What the loop can do about a request: wait for its start, stop, or give it up. -/
inductive Checked (sys : System) (m : Manager) : Manager → Prop
  | waits (early : m.sdRec.how = .none ∨ m.sdRec.start ≠ TO_INF ∧ sys.now < m.sdRec.start) : Checked sys m m
  | stops (how : m.sdRec.how ≠ .none) (due : ¬ (m.sdRec.start ≠ TO_INF ∧ sys.now < m.sdRec.start)) (force : Bool)
      (sdRec : SdRec) (same : sdRec.how = m.sdRec.how) : Checked sys m (stoppen force { m with sdRec := sdRec })
  | cancels (how : m.sdRec.how ≠ .none) (sdRec : SdRec) :
      Checked sys m (Manager.cancelShutdown { m with sdRec := sdRec } sys)

theorem checkShutdown_checked (sys : System) (m : Manager) : Checked sys m (checkShutdown sys m) := by
  unfold checkShutdown
  dsimp only
  split_ifs with how early timeout shuts
  · exact .waits (.inl how)
  · exact .waits (.inr early)
  · exact .stops how early true { m.sdRec with start := TO_INF, timeout := TO_INF } rfl
  · exact .cancels how _
  · exact .stops how early false { m.sdRec with start := TO_INF } rfl

/-- The pending request is the last one accepted. Its start is over where the daemon is
    stopping, and is the one that the request was accepted with otherwise. -/
structure Waits (s : Daemon) : Prop where
  clock : 0 ≤ s.now
  atEnd : ∀ d ∈ s.manager.displays, d.sdRec.how ≠ .none → d.sdRec.start = 0
  pending : s.manager.sdRec.how ≠ .none → ∃ r, s.last = some r ∧ r.cancelled = false ∧
    (s.manager.stopping = true ∧ r.start ≤ s.now ∨
      s.manager.stopping = false ∧ s.manager.sdRec.start = r.start ∧ r.start ≠ TO_INF)

/-- No request comes for a start at `TO_INF`, nor, while the daemon is stopping, for one that is not over. -/
def Timely (s : Daemon) (sys : System) : Event → Prop
  | .command addr line => ∀ d sdr, s.socket addr = some d → accepted sys s.manager d line = some sdr →
      sdr.how ≠ .none → sdr.start ≠ TO_INF ∧ (s.manager.stopping = true → sdr.start ≤ s.now)
  | _ => True

namespace Waits

variable {s : Daemon}

theorem quiet (waits : Waits s) {m : Manager} (quiet : Quiet s.manager m) : Waits { s with manager := m } := by
  refine ⟨waits.clock,?_,?_⟩
  · intro d within pending
    obtain ⟨before,listed,same⟩ := quiet.displays d within pending
    exact same ▸ waits.atEnd before listed (same ▸ pending)
  · intro pending
    change m.sdRec.how ≠ .none at pending
    rw [quiet.sdRec] at pending
    obtain ⟨r,last,notCancelled,start⟩ := waits.pending pending
    exact ⟨r,last,notCancelled,by simpa only [quiet.stopping,quiet.sdRec] using start⟩

theorem later (waits : Waits s) (elapsed : Nat) : Waits { s with now := s.now+elapsed } := by
  refine ⟨?_,waits.atEnd,?_⟩
  · have clock := waits.clock
    dsimp only
    omega
  · intro pending
    obtain ⟨r,last,notCancelled,start⟩ := waits.pending pending
    refine ⟨r,last,notCancelled,start.imp_left ?_⟩
    rintro ⟨stopping,past⟩
    refine ⟨stopping,?_⟩
    dsimp only
    omega

theorem changeDisplays (waits : Waits s) (change : Display → Option Change) : Waits (s.changeDisplays change) := by
  refine ⟨waits.clock,?_,waits.pending⟩
  intro d within pending
  obtain ⟨before,listed,made⟩ := List.mem_filterMap.mp within
  obtain ⟨c,_,same⟩ := Option.map_eq_some_iff.mp made
  subst same
  unfold Change.apply at pending ⊢
  dsimp only at pending ⊢
  split_ifs at pending ⊢ with forked
  · exact absurd rfl pending
  · exact waits.atEnd before listed pending

theorem command (waits : Waits s) {sys : System} {d : Option Display} {line : String}
    (timely : ∀ sdr, accepted sys s.manager d line = some sdr → sdr.how ≠ .none →
      sdr.start ≠ TO_INF ∧ (s.manager.stopping = true → sdr.start ≤ s.now)) : Waits (s.command sys d line) := by
  have heard := processCtrl_heard sys s.manager d line
  unfold Daemon.command
  generalize accepted sys s.manager d line = request at heard timely ⊢
  generalize (processCtrl sys s.manager d line).1 = m at heard ⊢
  cases heard with
  | quiet quiet => exact waits.quiet quiet
  | @waits sdr _ waiting displays sdRec stopping =>
    refine ⟨waits.clock,?_,?_⟩
    · intro d' within pending
      rcases displays d' within pending with start | ⟨before,listed,same⟩
      · exact start
      · exact same ▸ waits.atEnd before listed (same ▸ pending)
    · intro pending
      change m.sdRec.how ≠ .none at pending
      rw [sdRec] at pending
      have start := waits.pending pending
      simpa only [heard,waiting,and_self,if_true,sdRec,stopping] using start
  | @cancelled sdr _ now how displays sdRec =>
    refine ⟨waits.clock,?_,fun pending => absurd sdRec pending⟩
    intro d' within pending
    obtain ⟨before,listed,same⟩ := displays d' within pending
    exact same ▸ waits.atEnd before listed (same ▸ pending)
  | installed sdr now how uid =>
    obtain ⟨finite,past⟩ := timely sdr rfl how
    refine ⟨waits.clock,waits.atEnd,fun _ => ⟨⟨sdr.start,false⟩,?_,rfl,?_⟩⟩
    · simp only [heard,if_neg now,if_neg how]
    · cases stopping : s.manager.stopping with
      | true => exact .inl ⟨rfl,past stopping⟩
      | false => exact .inr ⟨rfl,rfl,finite⟩

theorem unUser (waits : Waits s) (sys : System) {d : Display} (within : d ∈ s.manager.displays) :
    Waits (s.unUser sys d) := by
  have spec := unUser_spec sys s.manager d
  unfold Daemon.unUser
  have promotes : Promotes sys s.manager d ↔ d.sdRec.how ≠ .none ∧ (ShutdownRights.unUser sys s.manager d).2 = false ∧
    ¬ (s.manager.sdRec.how ≠ .none ∧ s.manager.sdRec.force = .SHUT_FORCE ∧
      overrideForbidden s.manager.sdRec d d.sdRec.uid) := Iff.rfl
  generalize ShutdownRights.unUser sys s.manager d = result at spec promotes ⊢
  have closes : Quiet s.manager (s.manager.setDisplay d.addr closed) := .setDisplay _ _ fun _ => rfl
  have cleared_atEnd : ∀ d' ∈ (s.manager.setDisplay d.addr cleared).displays, d'.sdRec.how ≠ .none →
      d'.sdRec.start = 0 := by
    intro d' within' pending
    obtain ⟨before,listed,same⟩ := List.mem_map.mp within'
    subst same
    split_ifs at pending ⊢
    · exact absurd rfl pending
    · exact waits.atEnd before listed pending
  cases spec with
  | nothing how =>
    rw [if_neg fun p => (promotes.mp p).1 how]
    exact waits.quiet closes
  | asks how force =>
    rw [if_neg fun p => Bool.noConfusion (promotes.mp p).2.1]
    exact waits.quiet closes
  | promoted how quiet overrides =>
    rw [if_pos (promotes.mpr ⟨how,rfl,overrides⟩)]
    have start := waits.atEnd d within how
    refine ⟨waits.clock,cleared_atEnd,fun _ => ⟨⟨d.sdRec.start,false⟩,rfl,rfl,?_⟩⟩
    cases stopping : s.manager.stopping with
    | true => exact .inl ⟨stopping,start ▸ waits.clock⟩
    | false =>
      refine .inr ⟨stopping,rfl,?_⟩
      rw [start]
      decide
  | dropped how quiet overrides =>
    rw [if_neg fun p => (promotes.mp p).2.2 overrides]
    exact ⟨waits.clock,cleared_atEnd,waits.pending⟩

theorem handle (waits : Waits s) {sys : System} {event : Event} (timely : Timely s sys event) :
    Waits (s.handle sys event) := by
  cases event with
  | timeout => exact waits
  | command addr line =>
    simp only [Daemon.handle]
    cases heard : s.socket addr with
    | none => exact waits
    | some d => exact waits.command fun sdr request how => timely d sdr heard request how
  | user addr uid => exact waits.quiet (.setDisplay _ _ fun _ => rfl)
  | unUser addr =>
    simp only [Daemon.handle]
    cases found : displayAt s.manager addr with
    | none => exact waits
    | some d => exact waits.unUser sys (displayAt_mem found).1
  | exits exits rescan => exact waits.quiet (.reapChildren ..)

theorem checkShutdown (waits : Waits s) {sys : System} (clock : sys.now = s.now) :
    Waits { s with
      manager := checkShutdown sys s.manager
      last := if s.manager.sdRec.how ≠ .none ∧ (checkShutdown sys s.manager).sdRec.how = .none
        then s.last.map Request.cancel else s.last } := by
  have checked := checkShutdown_checked sys s.manager
  generalize MainLoop.checkShutdown sys s.manager = m at checked ⊢
  cases checked with
  | waits early =>
    rw [if_neg fun both => both.1 both.2]
    exact waits
  | stops how due force sdRec same =>
    obtain ⟨r,last,pending,start⟩ := waits.pending how
    have past : r.start ≤ s.now := by
      rcases start with ⟨_,past⟩ | ⟨_,start,finite⟩
      · exact past
      · rw [start,clock] at due
        exact Int.not_lt.mp fun later => due ⟨finite,later⟩
    obtain ⟨stopping,kept,displays⟩ := stoppen_stops force { s.manager with sdRec := sdRec }
    have uncancelled : ¬ (s.manager.sdRec.how ≠ .none ∧
        (stoppen force { s.manager with sdRec := sdRec }).sdRec.how = .none) := by
      rintro ⟨_,none⟩
      rw [kept] at none
      exact how (same ▸ none)
    rw [if_neg uncancelled]
    refine ⟨waits.clock,?_,fun _ => ⟨r,last,pending,.inl ⟨stopping,past⟩⟩⟩
    intro d within how
    obtain ⟨before,listed,same⟩ := displays d within how
    exact same ▸ waits.atEnd before listed (same ▸ how)
  | cancels how sdRec =>
    refine ⟨waits.clock,?_,fun pending => absurd (cancelShutdown_how sys _) pending⟩
    intro d within how
    obtain ⟨before,listed,same⟩ := cancelShutdown_noted sys { s.manager with sdRec := sdRec } d within how
    exact same ▸ waits.atEnd before listed (same ▸ how)

theorem prepare (waits : Waits s) (p : Pass) : Waits (s.prepare p) := by
  unfold Daemon.prepare
  by_cases stopping : s.manager.stopping = true
  · simp only [if_pos stopping]
    exact waits.checkShutdown rfl
  · simp only [if_neg stopping]
    exact (waits.changeDisplays p.started).checkShutdown rfl

theorem wake (waits : Waits s) (p : Pass) : Waits (s.wake p) :=
  ((waits.prepare p).later p.elapsed).changeDisplays p.timers

end Waits

/-- Every request of the run is timely. -/
def AllTimely (s : Daemon) : List Pass → Prop
  | [] => True
  | p :: passes => goesOn s.manager = true → Timely (s.wake p) { p.sys with now := (s.wake p).now } p.event ∧
      AllTimely (s.pass p) passes

theorem mainLoop_waits {s t : Daemon} {passes : List Pass} (waits : Waits s) (timely : AllTimely s passes)
    (ends : mainLoop s passes = some t) : Waits t ∧ goesOn t.manager = false := by
  induction passes generalizing s with
  | nil =>
    unfold mainLoop at ends
    split_ifs at ends with going
    cases ends
    exact ⟨waits,by simpa using going⟩
  | cons p passes ih =>
    unfold mainLoop at ends
    split_ifs at ends with going
    · obtain ⟨now,rest⟩ := timely going
      exact ih ((waits.wake p).handle now) rest ends
    · cases ends
      exact ⟨waits,by simpa using going⟩

/-- The daemon as `main` enters the loop: nothing is requested. -/
structure Starts (s : Daemon) : Prop where
  clock : 0 ≤ s.now
  sdRec : s.manager.sdRec.how = .none
  displays : ∀ d ∈ s.manager.displays, d.sdRec.how = .none

/-- While a request waits for its start, something is left that the loop waits for. -/
def Accompanied (s : Daemon) : Prop :=
  s.manager.stopping = false → s.manager.sdRec.how ≠ .none → s.now < s.manager.sdRec.start →
    s.manager.listenSockets = true ∨ s.manager.displays ≠ []

/-- A display with a session, and a pass of a second that brings an event. -/
def office : Daemon :=
  ⟨⟨[⟨1,":0",none,⟨true,.dFromFile,.dPermanent⟩,.running,.DS_RESTART,100,101,7,1000,.none,.SHUT_ALL,.SHUT_ALL,[]⟩],
    [⟨":0",0,false,none,none,none⟩],.none,false,false,true,true⟩,10000,none⟩

def second (event : Event) : Pass :=
  let kept (d : Display) : Option Change := some ⟨d.status,d.pid,d.serverPid,d.serverVT,false⟩
  ⟨bare,kept,1,kept,event⟩

/-- The session ends, its process exits, and its server. -/
def leaving : List Pass :=
  [second (.unUser 1),second (.exits [.session 1 .EX_NORMAL false false (-1)] none),
    second (.exits [.server 1 none (-1)] none)]

theorem office_starts : Starts office := ⟨by decide,by decide,by decide⟩

end KdeWorkspace.MainLoop
