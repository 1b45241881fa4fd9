import KdeWorkspace.DisplayCycle
import Mathlib.Data.List.Nodup
import Mathlib.Logic.Relation

/-!
What can happen to a display at a time. Whatever kdm does about an event is a sequence of such moves
(`DisplayCourses`), so that what every move preserves holds at all times.

Four moves are made only where `Allowed` lets them be: they are those after which something is wrong.
-/
namespace KdeWorkspace.DisplayCycle
open List
open ControlCommands (DisplayStatus SdRec)
open Manager

structure Allowed where
  /-- The session of a display whose server has come up cannot be forked. -/
  abandon : Manager → Nat → Prop
  /-- A display is restarted after its session. -/
  restart : Manager → Nat → Prop
  /-- A display that is not running becomes a reserve display. -/
  bench : Manager → Nat → Prop
  /-- The last process of a stopped display is gone, and it does not go to text mode. -/
  leave : List (Nat × DisplayStatus) → Bool → Nat → Prop

/-- What the moves of a display leave alone unless they are about it. -/
structure Same (d d' : Display) : Prop where
  pid : d'.pid = d.pid
  serverPid : d'.serverPid = d.serverPid
  serverStatus : d'.serverStatus = d.serverStatus

/-- Processes end. -/
structure Loses (d d' : Display) : Prop where
  pid : d'.pid = d.pid ∨ d'.pid = none
  serverPid : d'.serverPid = d.serverPid ∨ d'.serverPid = none
  serverStatus : d'.serverStatus = d.serverStatus

def Display.idle (d : Display) : Prop := d.pid = none ∧ d.serverPid = none

/-- A change of one display. -/
inductive Turn (A : Allowed) (m : Manager) (d d' : Display) : Prop
  | other (same : Same d d') (status : d'.status = d.status)
  | await (was : d.status = .notRunning) (now : d'.status = .running) (pid : d'.pid = d.pid)
      (serverPid : d'.serverPid = none) (awaiting : d'.serverStatus = .awaiting)
  | enter (was : d.status = .notRunning ∨ d.status = .running) (now : d'.status = .running) (pid : d'.pid ≠ none)
      (serverStatus : d'.serverStatus = .ignore ∨ d.status = .notRunning ∧ d'.serverStatus = d.serverStatus)
  | abandon (allowed : A.abandon m d.addr) (was : d.status = .running) (now : d'.status = .notRunning)
      (pid : d'.pid = none) (serverStatus : d'.serverStatus = .ignore)
  | raise (was : d.status = .running) (now : d'.status = .raiser) (pid : d.pid ≠ none) (same : Same d d')
  | zombify (free : m.startingServer ≠ some d.addr) (now : d'.status = .zombie) (loses : Loses d d')
      (left : d'.pid ≠ none ∨ d'.serverPid ≠ none)
  | retire (free : m.startingServer ≠ some d.addr) (now : d'.status = .reserve) (loses : Loses d d') (idle : d'.idle)
      (served : d.serverStatus ≠ .awaiting) (leave : d.status = .zombie → A.leave m.statuses m.utmpList d.addr)
  | remote (free : m.startingServer ≠ some d.addr)
      (now : d'.status = .remoteLogin ∧ d'.serverPid ≠ none ∨ d'.status = .notRunning) (pid : d'.pid = none)
      (serverStatus : d'.serverStatus = d.serverStatus) (served : d.serverStatus ≠ .awaiting)
      (leave : d.status = .zombie → A.leave m.statuses m.utmpList d.addr)
  | restart (allowed : A.restart m d.addr) (was : d.status ≠ .zombie) (had : d.pid ≠ none)
      (now : d'.status = .phoenix ∧ d'.serverPid ≠ none ∨ d'.status = .notRunning) (pid : d'.pid = none)
      (serverStatus : d'.serverStatus = d.serverStatus)
  | bereft (was : d.status ≠ .zombie ∧ d.status ≠ .phoenix ∧ d.status ≠ .remoteLogin) (now : d'.status = d.status)
      (pid : d'.pid = d.pid) (serverPid : d'.serverPid = none) (serverStatus : d'.serverStatus = d.serverStatus)
  | arise (was : d.status = .phoenix ∨ d.status = .remoteLogin)
      (now : d'.status = .notRunning ∨ d'.status = .reserve) (pid : d'.pid = d.pid) (serverPid : d'.serverPid = none)
      (serverStatus : d'.serverStatus = d.serverStatus)
  | wake (was : d.status = .reserve) (now : d'.status = .notRunning) (same : Same d d')
  | bench (allowed : A.bench m d.addr) (was : d.status = .notRunning) (now : d'.status = .reserve) (same : Same d d')

/-- The server of the display is on its way, however bad it looks. -/
def ServerStatus.underway (s : ServerStatus) : Prop := s ≠ .ignore ∧ s ≠ .awaiting

/-- A change of the daemon. -/
inductive Move (A : Allowed) (m : Manager) : Manager → Prop
  | turn {d d' : Display} (inside : d ∈ m.displays) (addr : d'.addr = d.addr) (turn : Turn A m d d') :
      Move A m (m.set d.addr fun _ => d')
  | create {d : Display} (unused : ∀ e ∈ m.displays, e.addr ≠ d.addr) (idle : d.idle)
      (now : d.status = .notRunning ∨ d.status = .reserve) (serverStatus : d.serverStatus = .ignore) :
      Move A m { m with displays := d :: m.displays }
  | remove {d d' : Display} (inside : d ∈ m.displays) (addr : d'.addr = d.addr) (free : m.startingServer ≠ some d.addr)
      (idle : d'.idle) (leave : d.status = .zombie → A.leave m.statuses m.utmpList d.addr) :
      Move A m { m with displays := m.displays.filter (fun e => e.addr ≠ d.addr), removed := d' :: m.removed }
  | release {d d' : Display} {timer : Option Nat} (inside : d ∈ m.displays) (addr : d'.addr = d.addr)
      (starting : m.startingServer = some d.addr) (same : d'.status = d.status ∧ d'.pid = d.pid)
      (serverPid : d'.serverPid = d.serverPid ∨ d.status = .running) (serverStatus : d'.serverStatus = .ignore) :
      Move A m ((m.set d.addr fun _ => d').withServer none timer)
  | serve {d d' : Display} {timer : Nat} (inside : d ∈ m.displays) (addr : d'.addr = d.addr)
      (was : d.status = .running ∧ d.pid = none) (now : d'.status = .running ∧ d'.pid = none)
      (underway : d'.serverStatus.underway) :
      Move A m ((m.set d.addr fun _ => d').withServer (some d.addr) (some timer))
  | connOk : Move A m (m.withServer none m.serverTimeout)
  | timer {t : Option Nat}
      (done : ∀ d ∈ m.displays, m.startingServer = some d.addr → ¬ d.serverStatus.underway) :
      Move A m (m.withServer m.startingServer t)
  | resume : Move A m m.wakeDisplays
  | plan {sdRec : SdRec} {stopping : Bool} : Move A m { m with sdRec := sdRec, stopping := stopping }

/-- A move, or one that has to do with the console login. Where the flag is set, a display has been sent
    to text mode, and it is still to be checked whether the console login can begin. -/
inductive Go (A : Allowed) : Bool × Manager → Bool × Manager → Prop
  | move {due : Bool} {m m' : Manager} (move : Move A m m') : Go A (due,m) (due,m')
  | suspend {due : Bool} {m : Manager} {d d' : Display} (inside : d ∈ m.displays) (addr : d'.addr = d.addr)
      (free : m.startingServer ≠ some d.addr) (now : d'.status = .textMode) (loses : Loses d d') (idle : d'.idle)
      (served : d.serverStatus ≠ .awaiting) : Go A (due,m) (true,m.set d.addr fun _ => d')
  | late {due : Bool} {m : Manager} : Go A (due,m) (true,m)
  | check {due : Bool} {m : Manager} (w : World) : Go A (due,m) (false,m.checkTTYMode w)

/-- A sequence of moves. -/
def Course (A : Allowed) : Bool × Manager → Bool × Manager → Prop := Relation.ReflTransGen (Go A)

variable {A : Allowed}

theorem Course.refl (s : Bool × Manager) : Course A s s := Relation.ReflTransGen.refl

theorem Course.trans {s₁ s₂ s₃ : Bool × Manager} (first : Course A s₁ s₂) (second : Course A s₂ s₃) : Course A s₁ s₃ :=
  Relation.ReflTransGen.trans first second

variable {s s' : Bool × Manager}

theorem Go.course (go : Go A s s') : Course A s s' := Relation.ReflTransGen.single go

theorem Move.course {m m' : Manager} (move : Move A m m') (due : Bool) : Course A (due,m) (due,m') :=
  (Go.move move).course

theorem Course.preserves {P : Bool × Manager → Prop} (go : ∀ s s', Go A s s' → P s → P s')
    (course : Course A s s') (start : P s) : P s' := by
  induction course with
  | refl => exact start
  | tail _ last ih => exact go _ _ last ih

/-- What status and processes of a display have to do with each other. -/
structure Display.Coherent (d : Display) : Prop where
  session : d.pid ≠ none → d.status = .running ∨ d.status = .raiser ∨ d.status = .zombie
  raiser : d.status = .raiser → d.pid ≠ none
  zombie : d.status = .zombie → d.pid ≠ none ∨ d.serverPid ≠ none
  served : d.status = .phoenix ∨ d.status = .remoteLogin → d.serverPid ≠ none
  text : d.status = .textMode → d.serverPid = none
  awaiting : d.serverStatus = .awaiting → d.status = .running ∧ d.pid = none ∧ d.serverPid = none

/-- A display whose server is being started is no zombie, and it has a session only when the server is up. -/
structure Display.Begun (d : Display) : Prop where
  alive : d.status ≠ .zombie
  early : d.serverStatus ≠ .ignore → d.status = .running ∧ d.pid = none

structure Coherent (m : Manager) : Prop where
  unique : (m.displays.map (·.addr)).Nodup
  each : ∀ d ∈ m.displays, d.Coherent
  starting : ∀ a, m.startingServer = some a → ∃ d ∈ m.displays, d.addr = a
  begun : ∀ d ∈ m.displays, m.startingServer = some d.addr → d.Begun
  freed : ∀ d ∈ m.removed, d.idle

theorem set_addrs (m : Manager) (a : Nat) {f : Display → Display} (kept : ∀ d, d.addr = a → (f d).addr = d.addr) :
    ((m.set a f).displays.map (·.addr)) = m.displays.map (·.addr) := by
  simp only [Manager.set,map_map]
  apply map_congr_left
  intro d _
  by_cases here : d.addr = a
  · simp [here,(kept d here).trans here]
  · simp [here]

variable {m : Manager}

theorem mem_set {d d' e : Display} (inside : d ∈ m.displays) :
    e ∈ (m.set d.addr fun _ => d').displays ↔ e = d' ∨ e ∈ m.displays ∧ e.addr ≠ d.addr := by
  simp only [Manager.set,mem_map]
  constructor
  · rintro ⟨e',among,rfl⟩
    by_cases here : e'.addr = d.addr
    · exact .inl (if_pos here)
    · rw [if_neg here]
      exact .inr ⟨among,here⟩
  · rintro (rfl | ⟨among,elsewhere⟩)
    · exact ⟨d,inside,if_pos rfl⟩
    · exact ⟨e,among,if_neg elsewhere⟩

theorem Coherent.same (coherent : Coherent m) {d e : Display} (inside : d ∈ m.displays)
    (among : e ∈ m.displays) (addr : e.addr = d.addr) : e = d :=
  inj_on_of_nodup_map coherent.unique among inside addr

theorem Turn.coherent {d d' : Display} (turn : Turn A m d d') (before : d.Coherent) : d'.Coherent := by
  obtain ⟨session,raiser,zombie,served,text,awaiting⟩ := before
  cases turn with
  | other same status =>
    obtain ⟨pid,serverPid,serverStatus⟩ := same
    rw [← pid] at session raiser zombie awaiting
    rw [← serverPid] at zombie served text awaiting
    rw [← status] at session raiser zombie served text awaiting
    rw [← serverStatus] at awaiting
    exact ⟨session,raiser,zombie,served,text,awaiting⟩
  | await => constructor <;> grind
  | enter => constructor <;> grind
  | abandon => constructor <;> grind
  | raise was now pid same =>
    obtain ⟨samePid,sameServer,sameStatus⟩ := same
    constructor <;> grind
  | zombify free now loses left =>
    obtain ⟨pid,serverPid,serverStatus⟩ := loses
    constructor <;> grind
  | retire free now loses idle served leave =>
    obtain ⟨pid,serverPid⟩ := idle
    obtain ⟨-,-,serverStatus⟩ := loses
    constructor <;> grind
  | remote => constructor <;> grind
  | restart => constructor <;> grind
  | bereft => constructor <;> grind
  | arise => constructor <;> grind
  | wake was now same =>
    obtain ⟨samePid,sameServer,sameStatus⟩ := same
    constructor <;> grind
  | bench allowed was now same =>
    obtain ⟨samePid,sameServer,sameStatus⟩ := same
    constructor <;> grind

theorem Turn.begun {d d' : Display} (turn : Turn A m d d') (before : d.Coherent)
    (starting : m.startingServer = some d.addr) (begun : d.Begun) : d'.Begun := by
  obtain ⟨session,-,-,-,-,awaiting⟩ := before
  obtain ⟨alive,early⟩ := begun
  cases turn with
  | other same status =>
    obtain ⟨pid,-,serverStatus⟩ := same
    constructor <;> grind
  | await => constructor <;> grind
  | enter => constructor <;> grind
  | abandon => constructor <;> grind
  | raise was now pid same =>
    obtain ⟨samePid,sameServer,sameStatus⟩ := same
    constructor <;> grind
  | zombify free => exact absurd starting free
  | retire free => exact absurd starting free
  | remote free => exact absurd starting free
  | restart => constructor <;> grind
  | bereft => constructor <;> grind
  | arise => constructor <;> grind
  | wake was now same =>
    obtain ⟨samePid,sameServer,sameStatus⟩ := same
    constructor <;> grind
  | bench allowed was now same =>
    obtain ⟨samePid,sameServer,sameStatus⟩ := same
    constructor <;> grind

theorem Coherent.set (coherent : Coherent m) {d d' : Display} (inside : d ∈ m.displays)
    (addr : d'.addr = d.addr) (after : d'.Coherent) (begun : m.startingServer = some d.addr → d'.Begun) :
    Coherent (m.set d.addr fun _ => d') := by
  obtain ⟨unique,each,starting,others,freed⟩ := coherent
  constructor
  · rw [set_addrs m d.addr fun e here => addr.trans here.symm]
    exact unique
  · intro e among
    rcases (mem_set inside).mp among with rfl | ⟨among,_⟩
    · exact after
    · exact each e among
  · intro a named
    obtain ⟨e,among,rfl⟩ := starting a named
    by_cases here : e.addr = d.addr
    · exact ⟨d',(mem_set inside).mpr (.inl rfl),addr.trans here.symm⟩
    · exact ⟨e,(mem_set inside).mpr (.inr ⟨among,here⟩),rfl⟩
  · intro e among named
    rcases (mem_set inside).mp among with rfl | ⟨among,_⟩
    · exact begun (addr ▸ named)
    · exact others e among named
  · exact freed

theorem Coherent.free (coherent : Coherent m) (timer : Option Nat) : Coherent (m.withServer none timer) := by
  refine ⟨coherent.unique,coherent.each,?_,?_,coherent.freed⟩
  · intro a named
    cases named
  · intro d _ named
    cases named

theorem wakeDisplay_addr (d : Display) : (wakeDisplay d).addr = d.addr := by
  unfold wakeDisplay
  split <;> rfl

theorem wakeDisplay_same (d : Display) : Same d (wakeDisplay d) := by
  unfold wakeDisplay
  split <;> exact ⟨rfl,rfl,rfl⟩

theorem wakeDisplay_status (d : Display) :
    (wakeDisplay d).status = d.status ∧ d.status ≠ .textMode ∨
      d.status = .textMode ∧ ((wakeDisplay d).status = .reserve ∨ (wakeDisplay d).status = .notRunning) := by
  unfold wakeDisplay
  split
  · rename_i text
    refine .inr ⟨text,?_⟩
    by_cases reserve : d.displayType.lifetime = .dReserve
    · simp [reserve]
    · simp [reserve]
  · rename_i awake
    exact .inl ⟨rfl,awake⟩

theorem wakeDisplay_coherent {d : Display} (before : d.Coherent) : (wakeDisplay d).Coherent := by
  obtain ⟨pid,serverPid,serverStatus⟩ := wakeDisplay_same d
  have status := wakeDisplay_status d
  obtain ⟨session,raiser,zombie,served,text,awaiting⟩ := before
  constructor <;> grind

theorem wakeDisplays_coherent (coherent : Coherent m) : Coherent m.wakeDisplays := by
  obtain ⟨unique,each,starting,begun,freed⟩ := coherent
  constructor
  · simpa [wakeDisplays,wakeDisplay_addr,Function.comp_def] using unique
  · intro e among
    obtain ⟨d,inside,rfl⟩ := mem_map.mp among
    exact wakeDisplay_coherent (each d inside)
  · intro a named
    obtain ⟨d,inside,rfl⟩ := starting a named
    exact ⟨wakeDisplay d,mem_map_of_mem inside,wakeDisplay_addr d⟩
  · intro e among named
    obtain ⟨d,inside,rfl⟩ := mem_map.mp among
    rw [wakeDisplay_addr] at named
    obtain ⟨alive,early⟩ := begun d inside named
    obtain ⟨pid,serverPid,serverStatus⟩ := wakeDisplay_same d
    have status := wakeDisplay_status d
    constructor <;> grind
  · exact freed

theorem checkTTYMode_cases (w : World) (m : Manager) :
    m.checkTTYMode w = m ∧ (∃ d ∈ m.displays, d.status = .zombie) ∨ m.checkTTYMode w = m.wakeDisplays ∨
      m.checkTTYMode w = { m with utmpList := true } := by
  unfold checkTTYMode switchToTTY checkUtmp
  by_cases zombie : m.displays.any (·.status = .zombie) = true
  · rw [if_pos zombie]
    obtain ⟨d,inside,dying⟩ := any_eq_true.mp zombie
    exact .inl ⟨rfl,d,inside,of_decide_eq_true dying⟩
  · rw [if_neg zombie]
    by_cases memory : w.memory = true
    · by_cases lasts : w.utmpLasts = true
      · simp [memory,lasts]
      · simp [memory,lasts,wakeDisplays]
    · simp [memory]

theorem Go.coherent (go : Go A s s') (coherent : Coherent s.2) : Coherent s'.2 := by
  cases go with
  | @suspend due m d d' inside addr free now loses idle served =>
    obtain ⟨-,-,serverStatus⟩ := loses
    obtain ⟨pid,serverPid⟩ := idle
    have after : d'.Coherent := by constructor <;> grind
    exact coherent.set inside addr after fun starting => absurd starting free
  | late => exact coherent
  | @check due m w =>
    rcases checkTTYMode_cases w m with ⟨same,_⟩ | woken | login
    · rw [same]
      exact coherent
    · rw [woken]
      exact wakeDisplays_coherent coherent
    · rw [login]
      exact ⟨coherent.unique,coherent.each,coherent.starting,coherent.begun,coherent.freed⟩
  | @move due m m' move =>
    cases move with
    | @turn d d' inside addr turn =>
      exact coherent.set inside addr (turn.coherent (coherent.each d inside)) fun starting =>
        turn.begun (coherent.each d inside) starting (coherent.begun d inside starting)
    | @create d unused idle now serverStatus =>
      obtain ⟨pid,serverPid⟩ := idle
      have new : d.Coherent := by constructor <;> grind
      constructor
      · rw [map_cons,nodup_cons]
        refine ⟨?_,coherent.unique⟩
        intro used
        obtain ⟨e,among,same⟩ := mem_map.mp used
        exact unused e among same
      · exact forall_mem_cons.mpr ⟨new,coherent.each⟩
      · intro a named
        obtain ⟨e,among,here⟩ := coherent.starting a named
        exact ⟨e,mem_cons_of_mem _ among,here⟩
      · intro e among named
        rcases mem_cons.mp among with rfl | among
        · obtain ⟨e',among,here⟩ := coherent.starting _ named
          exact absurd here (unused e' among)
        · exact coherent.begun e among named
      · exact coherent.freed
    | @remove d d' inside addr free idle leave =>
      constructor
      · exact coherent.unique.sublist (List.Sublist.map _ filter_sublist)
      · exact fun e among => coherent.each e (mem_of_mem_filter among)
      · intro a named
        obtain ⟨e,among,rfl⟩ := coherent.starting a named
        have other : e.addr ≠ d.addr := fun here => free (here ▸ named)
        exact ⟨e,mem_filter.mpr ⟨among,by simpa using other⟩,rfl⟩
      · exact fun e among => coherent.begun e (mem_of_mem_filter among)
      · exact forall_mem_cons.mpr ⟨idle,coherent.freed⟩
    | @release d d' timer inside addr starting same serverPid serverStatus =>
      have before := coherent.each d inside
      obtain ⟨session,raiser,zombie,served,text,awaiting⟩ := before
      have after : d'.Coherent := by constructor <;> grind
      have freed : Coherent (m.withServer none timer) := coherent.free timer
      exact freed.set inside addr after fun named => nomatch named
    | @serve d d' timer inside addr was now underway =>
      obtain ⟨notIgnore,notAwaiting⟩ := underway
      have after : d'.Coherent := by constructor <;> grind
      have begun : d'.Begun := by constructor <;> grind
      have freed : Coherent (m.withServer none (some timer)) := coherent.free _
      have set := freed.set inside addr after fun named => nomatch named
      refine ⟨set.unique,set.each,?_,?_,set.freed⟩
      · rintro a named
        cases named
        exact ⟨d',(mem_set inside).mpr (.inl rfl),addr⟩
      · intro e among named
        rcases (mem_set inside).mp among with rfl | ⟨_,other⟩
        · exact begun
        · exact absurd (Option.some.inj named).symm other
    | connOk => exact coherent.free _
    | timer => exact ⟨coherent.unique,coherent.each,coherent.starting,coherent.begun,coherent.freed⟩
    | resume => exact wakeDisplays_coherent coherent
    | plan => exact ⟨coherent.unique,coherent.each,coherent.starting,coherent.begun,coherent.freed⟩

theorem Course.coherent (course : Course A s s') (coherent : Coherent s.2) : Coherent s'.2 :=
  course.preserves (P := fun s => Coherent s.2) (fun _ _ go => go.coherent) coherent

end KdeWorkspace.DisplayCycle
