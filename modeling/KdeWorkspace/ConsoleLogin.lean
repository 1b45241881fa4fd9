import KdeWorkspace.DisplayStarts

/-!
The switch to console mode: all local displays are stopped, and when the last one is gone, the console
login begins; when it is over, the displays are woken.

That the last one is gone is noticed only if it goes to text mode. If it has been stopped once more
meanwhile, or is not a display of the console at all, the others remain in text mode for good.
-/
namespace KdeWorkspace.DisplayCycle
open ControlCommands (DisplayStatus)
open Manager

/-- Displays in text mode wait for others to end, or for the console login to end. -/
def ConsoleServed (m : Manager) : Prop :=
  (∃ d ∈ m.displays, d.status = .textMode) → (∀ d ∈ m.displays, d.status ≠ .zombie) → m.utmpList = true

/-- A stopped display that does not go to text mode is not the last one that those in text mode wait for.
    And no console login is begun while a display waits for its server. -/
def Noticed (w : World) (m : Manager) : Event → Prop
  | .childExit pid _ =>
    ∀ d ∈ m.displays, d.status = .zombie →
      d.pid = some pid ∧ d.serverPid = none ∨ d.pid = none ∧ d.serverPid = some pid → d.zstatus ≠ .DS_TEXTMODE →
        m.utmpList = true ∨ (∀ e ∈ m.displays, e.status ≠ .textMode) ∨
          ∃ e ∈ m.displays, e.addr ≠ d.addr ∧ e.status = .zombie
  | .console => w.consoleTTYs → NoneAwaits m
  | _ => True

def noticing : Allowed where
  abandon _ _ := True
  restart _ _ := True
  bench _ _ := True
  leave statuses utmpList a :=
    utmpList = true ∨ (∀ s ∈ statuses, s.2 ≠ .textMode) ∨ ∃ s ∈ statuses, s.1 ≠ a ∧ s.2 = .zombie

theorem Noticed.meets {w : World} {m : Manager} {e : Event} (noticed : Noticed w m e) : Meets noticing w m e := by
  cases e with
  | childExit pid code =>
    refine ⟨fun _ _ _ _ => trivial,?_⟩
    intro d inside zombie final other
    rcases noticed d inside zombie final other with login | none | ⟨e,among,differs,dying⟩
    · exact .inl login
    · refine .inr (.inl ?_)
      intro s among
      obtain ⟨e,inside,rfl⟩ := List.mem_map.mp among
      exact none e inside
    · exact .inr (.inr ⟨_,List.mem_map_of_mem among,differs,dying⟩)
  | serverReady => exact fun _ _ _ _ _ => trivial
  | rescan hangup staticServers reserveServers => exact benches_true (fun _ _ => trivial) _ _
  | console => exact noticed
  | _ => trivial

/-- `ConsoleServed`, unless it is still to be checked whether the console login can begin. -/
def Served (s : Bool × Manager) : Prop :=
  s.1 = true ∨ ((∃ d ∈ s.2.displays, d.status = .textMode) →
    s.2.utmpList = true ∨ ∃ d ∈ s.2.displays, d.status = .zombie)

section
variable {due : Bool} {m : Manager} {d d' : Display}

theorem Served.without (served : Served (due,m)) (coherent : Coherent m) (inside : d ∈ m.displays)
    (leave : d.status = .zombie → noticing.leave m.statuses m.utmpList d.addr) :
    due = true ∨ ((∃ e ∈ m.displays, e.status = .textMode) →
      m.utmpList = true ∨ ∃ e ∈ m.displays, e.addr ≠ d.addr ∧ e.status = .zombie) := by
  rcases served with pending | served
  · exact .inl pending
  refine .inr fun text => ?_
  rcases served text with login | ⟨z,among,zombie⟩
  · exact .inl login
  by_cases here : z.addr = d.addr
  · have dying : d.status = .zombie := coherent.same inside among here ▸ zombie
    rcases leave dying with login | none | ⟨_,listed,differs,stopped⟩
    · exact .inl login
    · obtain ⟨e,there,status⟩ := text
      exact absurd status (none _ (List.mem_map_of_mem there))
    · obtain ⟨e,there,rfl⟩ := List.mem_map.mp listed
      exact .inr ⟨e,there,differs,stopped⟩
  · exact .inr ⟨z,among,here,zombie⟩

theorem Served.set (served : Served (due,m)) (coherent : Coherent m) (inside : d ∈ m.displays)
    (text : d'.status = .textMode → d.status = .textMode)
    (leave : d.status = .zombie → d'.status = .zombie ∨ noticing.leave m.statuses m.utmpList d.addr) :
    Served (due,m.set d.addr fun _ => d') := by
  by_cases zombie : d'.status = .zombie
  · exact .inr fun _ => .inr ⟨d',(mem_set inside).mpr (.inl rfl),zombie⟩
  rcases served.without coherent inside fun dying => (leave dying).resolve_left zombie with pending | without
  · exact .inl pending
  refine .inr ?_
  rintro ⟨e,among,texted⟩
  have before : ∃ e ∈ m.displays, e.status = .textMode := by
    rcases (mem_set inside).mp among with rfl | ⟨among,_⟩
    · exact ⟨d,inside,text texted⟩
    · exact ⟨e,among,texted⟩
  rcases without before with login | ⟨z,there,differs,stopped⟩
  · exact .inl login
  · exact .inr ⟨z,(mem_set inside).mpr (.inr ⟨there,differs⟩),stopped⟩

theorem Served.remove (served : Served (due,m)) (coherent : Coherent m) (inside : d ∈ m.displays)
    (leave : d.status = .zombie → noticing.leave m.statuses m.utmpList d.addr) :
    Served (due,{ m with displays := m.displays.filter (fun e => e.addr ≠ d.addr), removed := d' :: m.removed }) := by
  rcases served.without coherent inside leave with pending | without
  · exact .inl pending
  refine .inr ?_
  rintro ⟨e,among,texted⟩
  rcases without ⟨e,List.mem_of_mem_filter among,texted⟩ with login | ⟨z,there,differs,stopped⟩
  · exact .inl login
  · exact .inr ⟨z,List.mem_filter.mpr ⟨there,by simpa using differs⟩,stopped⟩

theorem Turn.served (turn : Turn noticing m d d') :
    (d'.status = .textMode → d.status = .textMode) ∧
    (d.status = .zombie → d'.status = .zombie ∨ noticing.leave m.statuses m.utmpList d.addr) := by
  cases turn with
  | other same status => exact ⟨fun text => status ▸ text,fun zombie => .inl (status.trans zombie)⟩
  | bereft was now => exact ⟨fun text => now ▸ text,fun zombie => absurd zombie was.1⟩
  | zombify free now => exact ⟨fun text => by simp [now] at text,fun _ => .inl now⟩
  | retire free now loses idle served leave => exact ⟨fun text => by simp [now] at text,fun zombie => .inr (leave zombie)⟩
  | remote free now pid serverStatus served leave =>
    refine ⟨fun text => ?_,fun zombie => .inr (leave zombie)⟩
    rcases now with ⟨now,_⟩ | now <;> simp [now] at text
  | restart allowed was had now =>
    refine ⟨fun text => ?_,fun zombie => absurd zombie was⟩
    rcases now with ⟨now,_⟩ | now <;> simp [now] at text
  | arise was now => constructor <;> grind
  | await was now => constructor <;> grind
  | enter was now => constructor <;> grind
  | abandon allowed was now => constructor <;> grind
  | raise was now => constructor <;> grind
  | wake was now => constructor <;> grind
  | bench allowed was now => constructor <;> grind

end

theorem wakeDisplays_served (due : Bool) (m : Manager) : Served (due,m.wakeDisplays) := by
  refine .inr ?_
  rintro ⟨e,among,text⟩
  obtain ⟨d,_,rfl⟩ := List.mem_map.mp among
  rcases wakeDisplay_status d with ⟨same,awake⟩ | ⟨_,woken | woken⟩
  · exact absurd (same ▸ text) awake
  · rw [woken] at text
    cases text
  · rw [woken] at text
    cases text

theorem Go.served {s s' : Bool × Manager} (coherent : Coherent s.2) (go : Go noticing s s') (served : Served s) :
    Served s' := by
  cases go with
  | suspend => exact .inl rfl
  | late => exact .inl rfl
  | @check due m w =>
    rcases checkTTYMode_cases w m with ⟨same,zombie⟩ | woken | login
    · rw [same]
      exact .inr fun _ => .inr zombie
    · rw [woken]
      exact wakeDisplays_served false m
    · rw [login]
      exact .inr fun _ => .inl rfl
  | @move due m m' move =>
    cases move with
    | @turn d d' inside addr turn =>
      obtain ⟨text,leave⟩ := turn.served
      exact served.set coherent inside text leave
    | @create d unused idle now =>
      rcases served with pending | served
      · exact .inl pending
      refine .inr ?_
      rintro ⟨e,among,text⟩
      have old : e ∈ m.displays := by
        rcases List.mem_cons.mp among with rfl | among
        · rcases now with now | now <;> simp [now] at text
        · exact among
      rcases served ⟨e,old,text⟩ with login | ⟨z,there,stopped⟩
      · exact .inl login
      · exact .inr ⟨z,List.mem_cons_of_mem _ there,stopped⟩
    | remove inside addr free idle leave => exact served.remove coherent inside leave
    | release inside addr starting same =>
      exact served.set coherent inside (fun text => same.1 ▸ text) fun zombie => .inl (same.1.trans zombie)
    | serve inside addr was now =>
      refine served.set coherent inside (fun text => ?_) fun zombie => ?_
      · simp [now.1] at text
      · simp [was.1] at zombie
    | connOk => exact served
    | timer => exact served
    | resume => exact wakeDisplays_served due m
    | plan => exact served

/-- Displays in text mode are waiting for others that are stopped, or for the console login, as long as
    the last of the others is noticed. -/
theorem console_served_noticed {m : Manager} (reached : Reached Noticed m) : ConsoleServed m := by
  have meets : Reached (Meets noticing) m := reached.mono fun _ _ _ => Noticed.meets
  have served : Served (false,m) :=
    meets.preserves (fun _ _ coherent go => go.served coherent) (.inr fun ⟨_,inside,_⟩ => nomatch inside)
  intro text none
  rcases served with impossible | served
  · cases impossible
  · rcases served text with login | ⟨z,inside,zombie⟩
    · exact login
    · exact absurd zombie (none z inside)

/-- One display is up when a console login is asked for. -/
def switching : List (World × Event) :=
  [(world 1,.rescan false [":0"] []),(world 10,.startDisplays),(world 12,.serverReady),(world 13,.connOk),
    (world 14,.console),(world 15,.childExit 12003 .SIGTERM),(world 16,.childExit 10002 .other)]

theorem console_served_switching :
    ∃ m, run initial switching = some m ∧ m.displays.map (·.status) = [.textMode] ∧ ConsoleServed m := by
  have follows : Follows Noticed initial switching := by
    refine ⟨trivial,fun m₁ s₁ => ⟨trivial,fun m₂ s₂ => ⟨trivial,fun m₃ s₃ => ⟨trivial,fun m₄ s₄ => ?_⟩⟩⟩⟩
    cases s₁
    cases s₂
    cases s₃
    cases s₄
    refine ⟨fun _ => ?_,fun m₅ s₅ => ?_⟩
    · unfold NoneAwaits
      decide
    · cases s₅
      refine ⟨by unfold Noticed; decide,fun m₆ s₆ => ⟨?_,fun _ _ => trivial⟩⟩
      cases s₆
      unfold Noticed
      decide
  exact ⟨_,rfl,rfl,console_served_noticed (Reached.initial.follows switching follows rfl)⟩

/-- Both displays are being stopped for the console login when the configuration is read again, and there
    is no `:0` any more. The other display has gone by then. Nobody notices that `:0` is gone, too. -/
theorem console_unnoticed :
    ∃ m, run initial [(world 1,.rescan false [":0",":1"] []),(world 10,.startDisplays),(world 12,.serverReady),
      (world 13,.connOk),(world 14,.startDisplays),(world 15,.serverReady),(world 16,.connOk),(world 17,.console),
      (world 18,.childExit 12005 .SIGTERM),(world 19,.childExit 10004 .other),(world 20,.rescan true [":1"] []),
      (world 21,.startDisplays),(world 22,.childExit 15003 .SIGTERM),(world 23,.childExit 14002 .other)] = some m ∧
    m.displays.map (fun d => (d.name,d.status)) = [(":1",.textMode)] ∧ ¬ ConsoleServed m := by
  refine ⟨_,rfl,by decide,?_⟩
  intro served
  have login := served (by decide) (by decide)
  revert login
  decide

end KdeWorkspace.DisplayCycle
