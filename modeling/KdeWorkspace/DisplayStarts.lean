import KdeWorkspace.DisplayCourses

/-!
Only one X server is started at a time. The display whose server that is keeps all others waiting, so
it must be on its way, or have a session which will report that it has connected.

Two things go wrong: a session that ends before it has reported leaves the display in possession when
it is restarted, and so does a session that cannot be forked when the server is up. A console login
which stops a display that waits for its turn lets it wait on.
-/
namespace KdeWorkspace.DisplayCycle
open Manager

/-- Nothing keeps the displays that wait for their servers waiting for ever. -/
def Unblocked (m : Manager) : Prop :=
  ∀ a, m.startingServer = some a → ∃ d ∈ m.displays, d.addr = a ∧
    ((d.serverStatus = .starting ∨ d.serverStatus = .terminated ∨ d.serverStatus = .killed ∨ d.serverStatus = .pausing) ∧
      m.serverTimeout ≠ none ∨ d.pid ≠ none)

/-- No display is restarted, or left without a session, before it has reported. -/
def Reports (w : World) (m : Manager) : Event → Prop
  | .childExit pid code =>
    ∀ d ∈ m.displays, m.startingServer = some d.addr → d.pid = some pid → ¬ Restarts w m d code
  | .serverReady =>
    ∀ d ∈ m.displays, m.startingServer = some d.addr → d.serverStatus = .starting → w.forkSession d.addr ≠ none
  | .console => w.consoleTTYs → NoneAwaits m
  | _ => True

def reporting : Allowed where
  abandon m a := m.startingServer ≠ some a
  restart m a := m.startingServer ≠ some a
  bench _ _ := True
  leave _ _ _ := True

theorem benches_true {A : Allowed} (free : ∀ m a, A.bench m a) (names : List String) (m : Manager) :
    Benches A m names := by
  induction names generalizing m with
  | nil => trivial
  | cons name names ih => exact ⟨fun d _ _ => free m d.addr,ih _⟩

theorem Reports.meets {w : World} {m : Manager} {e : Event} (reports : Reports w m e) : Meets reporting w m e := by
  cases e with
  | childExit pid code =>
    refine ⟨?_,fun _ _ _ _ _ => trivial⟩
    intro d inside session restarts starting
    exact reports d inside starting session restarts
  | serverReady =>
    intro d inside starting up lost
    exact absurd lost (reports d inside starting up)
  | rescan hangup staticServers reserveServers => exact benches_true (fun _ _ => trivial) _ _
  | console => exact reports
  | _ => trivial

/-- The display that has the turn, where the others wait for it. -/
def Attended (m : Manager) : Prop :=
  ∀ d ∈ m.displays, m.startingServer = some d.addr → d.serverStatus.underway ∧ m.serverTimeout ≠ none ∨ d.pid ≠ none

theorem Turn.attended {m : Manager} {d d' : Display} (turn : Turn reporting m d d') (before : d.Coherent)
    (begun : d.Begun) (starting : m.startingServer = some d.addr)
    (attended : d.serverStatus.underway ∧ m.serverTimeout ≠ none ∨ d.pid ≠ none) :
    d'.serverStatus.underway ∧ m.serverTimeout ≠ none ∨ d'.pid ≠ none := by
  have session := before.session
  have early : d.serverStatus.underway → d.status = .running := fun underway => (begun.early underway.1).1
  cases turn with
  | other same => rw [same.pid,same.serverStatus]; exact attended
  | enter was now pid => exact .inr pid
  | raise was now pid same => exact .inr (same.pid ▸ pid)
  | bereft was now pid serverPid serverStatus => rw [pid,serverStatus]; exact attended
  | abandon allowed => exact absurd starting allowed
  | restart allowed => exact absurd starting allowed
  | zombify free => exact absurd starting free
  | retire free => exact absurd starting free
  | remote free => exact absurd starting free
  | await was => grind
  | arise was => grind
  | wake was => grind
  | bench allowed was => grind

theorem wakeDisplays_attended {m : Manager} (attended : Attended m) : Attended m.wakeDisplays := by
  intro e among starting
  obtain ⟨d,inside,rfl⟩ := List.mem_map.mp among
  rw [wakeDisplay_addr] at starting
  obtain ⟨pid,-,serverStatus⟩ := wakeDisplay_same d
  rw [pid,serverStatus]
  exact attended d inside starting

theorem Go.attended {s s' : Bool × Manager} (coherent : Coherent s.2) (go : Go reporting s s') (attended : Attended s.2) :
    Attended s'.2 := by
  cases go with
  | @suspend due m d d' inside addr free =>
    intro e among starting
    rcases (mem_set inside).mp among with rfl | ⟨among,_⟩
    · exact absurd (addr ▸ starting) free
    · exact attended e among starting
  | late => exact attended
  | @check due m w =>
    rcases checkTTYMode_cases w m with ⟨same,_⟩ | woken | login
    · rw [same]
      exact attended
    · rw [woken]
      exact wakeDisplays_attended attended
    · rw [login]
      exact attended
  | @move due m m' move =>
    cases move with
    | @turn d d' inside addr turn =>
      intro e among starting
      rcases (mem_set inside).mp among with rfl | ⟨among,_⟩
      · have here : m.startingServer = some d.addr := addr ▸ starting
        exact turn.attended (coherent.each d inside) (coherent.begun d inside here) here (attended d inside here)
      · exact attended e among starting
    | @create d unused =>
      intro e among starting
      rcases List.mem_cons.mp among with rfl | among
      · obtain ⟨other,there,here⟩ := coherent.starting _ starting
        exact absurd here (unused other there)
      · exact attended e among starting
    | remove => exact fun e among => attended e (List.mem_of_mem_filter among)
    | release => exact fun e _ starting => nomatch starting
    | @serve d d' timer inside addr was now underway =>
      intro e among starting
      rcases (mem_set inside).mp among with rfl | ⟨_,other⟩
      · exact .inl ⟨underway,nofun⟩
      · exact absurd (Option.some.inj starting).symm other
    | connOk => exact fun e _ starting => nomatch starting
    | timer done =>
      intro e among starting
      rcases attended e among starting with ⟨underway,_⟩ | session
      · exact absurd underway (done e among starting)
      · exact .inr session
    | resume => exact wakeDisplays_attended attended
    | plan => exact attended

theorem Attended.unblocked {m : Manager} (attended : Attended m) (coherent : Coherent m) : Unblocked m := by
  intro a starting
  obtain ⟨d,inside,rfl⟩ := coherent.starting a starting
  refine ⟨d,inside,rfl,?_⟩
  rcases attended d inside starting with ⟨⟨notIgnore,notAwaiting⟩,timer⟩ | session
  · refine .inl ⟨?_,timer⟩
    cases status : d.serverStatus <;> simp_all
  · exact .inr session

/-- As long as no display is restarted or left without a session before it has reported, and no console
    login is begun while a display waits for its turn, the turn is never lost. -/
theorem starting_unblocked {m : Manager} (reached : Reached Reports m) : Unblocked m := by
  have meets : Reached (Meets reporting) m := reached.mono fun _ _ _ => Reports.meets
  have attended : Attended m :=
    meets.preserves (P := fun s => Attended s.2) (fun _ _ coherent go => go.attended coherent) (fun _ inside => nomatch inside)
  exact attended.unblocked meets.coherent

/-- The answers of the system at a time in the examples: processes get new numbers, and whatever is asked for is there. -/
def world (now : Nat) : World where
  now := now
  forkServer a := some (1000*now+2*a)
  forkSession a := some (1000*now+2*a+1)
  loadDisplayResources _ := some ⟨1,1,30,5,false,0⟩
  consoleTTYs := true
  memory := true
  utmpLasts := true
  serverVTs := [7,8,9]
  busyVT _ := false

/-- Two servers: the first that is started comes up and gets its session. -/
def comingUp : List (World × Event) :=
  [(world 1,.rescan false [":0",":1"] []),(world 10,.startDisplays),(world 12,.serverReady)]

theorem starting_unblocked_comingUp : ∃ m, run initial comingUp = some m ∧ m.startingServer = some 2 ∧ Unblocked m := by
  have follows : Follows Reports initial comingUp :=
    ⟨trivial,fun _ _ => ⟨trivial,fun _ _ => ⟨fun _ _ _ _ => Option.some_ne_none _,fun _ _ => trivial⟩⟩⟩
  exact ⟨_,rfl,rfl,starting_unblocked (Reached.initial.follows comingUp follows rfl)⟩

/-- The session cannot open its display and gives up after two minutes. Its server is ended as well, and
    the display is to be started again. Now it waits for the turn that it has itself. -/
theorem openFailed_blocked :
    ∃ m, run initial (comingUp ++ [(world 200,.childExit 12005 .EX_OPENFAILED_DPY),(world 201,.childExit 10004 .other),
      (world 202,.startDisplays)]) = some m ∧
    m.startingServer = some 2 ∧ (∀ d ∈ m.displays, d.serverStatus = .awaiting ∧ d.pid = none ∧ d.serverPid = none) ∧
    ¬ Unblocked m := by
  refine ⟨_,rfl,rfl,?_,?_⟩
  · decide
  · intro unblocked
    obtain ⟨d,inside,_,status⟩ := unblocked 2 rfl
    revert d
    decide

end KdeWorkspace.DisplayCycle
