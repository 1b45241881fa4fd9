import KdeWorkspace.DisplayStarts

/-!
Status and processes of the displays agree, and a display is freed only when it has no process left.

A console login breaks that: a display which it stops while it waits for its server gets the server all
the same. So does a configuration that makes a display a reserve display while its server runs on between
two sessions.
-/
namespace KdeWorkspace.DisplayCycle
open ControlCommands (Lifetime)
open Manager

structure StatusesAgree (m : Manager) : Prop where
  session : ∀ d ∈ m.displays, d.pid ≠ none → d.status = .running ∨ d.status = .raiser ∨ d.status = .zombie
  raiser : ∀ d ∈ m.displays, d.status = .raiser → d.pid ≠ none
  zombie : ∀ d ∈ m.displays, d.status = .zombie → d.pid ≠ none ∨ d.serverPid ≠ none
  served : ∀ d ∈ m.displays, d.status = .phoenix ∨ d.status = .remoteLogin → d.serverPid ≠ none
  passive : ∀ d ∈ m.displays, d.status = .textMode ∨ d.status = .reserve → d.pid = none ∧ d.serverPid = none
  freed : ∀ d ∈ m.removed, d.pid = none ∧ d.serverPid = none

/-- No console login is begun while a display waits for its server, and no display becomes a reserve
    display while it has a server but is not running. -/
def Orderly (w : World) (m : Manager) : Event → Prop
  | .console => w.consoleTTYs → NoneAwaits m
  | .rescan _ _ reserveServers =>
    ∀ name ∈ reserveServers, ∀ d, m.findDisplayByName name = some d → d.status = .notRunning → d.serverPid = none
  | _ => True

def benching : Allowed where
  abandon _ _ := True
  restart _ _ := True
  bench m a := ∀ d ∈ m.displays, d.addr = a → d.serverPid = none
  leave _ _ _ := True

/-- Reserve displays have no server. -/
def ReserveIdle (m : Manager) : Prop := ∀ d ∈ m.displays, d.status = .reserve → d.serverPid = none

variable {m : Manager}

theorem Turn.reserveIdle {d d' : Display} (turn : Turn benching m d d') (inside : d ∈ m.displays)
    (idle : d.status = .reserve → d.serverPid = none) : d'.status = .reserve → d'.serverPid = none := by
  intro reserve
  cases turn with
  | other same status => exact same.serverPid ▸ idle (status ▸ reserve)
  | bereft was now pid serverPid => exact serverPid
  | retire free now loses none => exact none.2
  | arise was now pid serverPid => exact serverPid
  | bench allowed was now same => exact same.serverPid ▸ allowed d inside rfl
  | await was now => simp [now] at reserve
  | enter was now => simp [now] at reserve
  | abandon allowed was now => simp [now] at reserve
  | raise was now => simp [now] at reserve
  | zombify free now => simp [now] at reserve
  | remote free now => rcases now with ⟨now,_⟩ | now <;> simp [now] at reserve
  | restart allowed was had now => rcases now with ⟨now,_⟩ | now <;> simp [now] at reserve
  | wake was now => simp [now] at reserve

theorem wakeDisplays_reserveIdle (coherent : Coherent m) (idle : ReserveIdle m) : ReserveIdle m.wakeDisplays := by
  intro e among reserve
  obtain ⟨d,inside,rfl⟩ := List.mem_map.mp among
  rw [(wakeDisplay_same d).serverPid]
  rcases wakeDisplay_status d with ⟨same,_⟩ | ⟨text,_⟩
  · exact idle d inside (same ▸ reserve)
  · exact (coherent.each d inside).text text

theorem Go.reserveIdle {s s' : Bool × Manager} (coherent : Coherent s.2) (go : Go benching s s')
    (idle : ReserveIdle s.2) : ReserveIdle s'.2 := by
  have set {m : Manager} (idle : ReserveIdle m) {d d' : Display} (inside : d ∈ m.displays)
      (after : d'.status = .reserve → d'.serverPid = none) : ReserveIdle (m.set d.addr fun _ => d') := by
    intro e among
    rcases (mem_set inside).mp among with rfl | ⟨among,_⟩
    · exact after
    · exact idle e among
  cases go with
  | suspend inside addr free now => exact set idle inside fun reserve => by simp [now] at reserve
  | late => exact idle
  | @check due m w =>
    rcases checkTTYMode_cases w m with ⟨same,_⟩ | woken | login
    · rw [same]
      exact idle
    · rw [woken]
      exact wakeDisplays_reserveIdle coherent idle
    · rw [login]
      exact idle
  | @move due m m' move =>
    cases move with
    | @turn d d' inside addr turn => exact set idle inside (turn.reserveIdle inside (idle d inside))
    | create unused new => exact List.forall_mem_cons.mpr ⟨fun _ => new.2,idle⟩
    | remove => exact fun e among => idle e (List.mem_of_mem_filter among)
    | @release d d' timer inside addr starting same serverPid =>
      refine set idle inside fun reserve => ?_
      rcases serverPid with kept | running
      · exact kept ▸ idle d inside (same.1 ▸ reserve)
      · rw [same.1,running] at reserve
        cases reserve
    | serve inside addr was now => exact set idle inside fun reserve => by simp [now.1] at reserve
    | connOk => exact idle
    | timer => exact idle
    | resume => exact wakeDisplays_reserveIdle coherent idle
    | plan => exact idle

/-- The display of a name keeps its server while it is not running. -/
def KeepsServer (m : Manager) (name : String) : Prop :=
  ∃ d, m.findDisplayByName name = some d ∧ d.status = .notRunning ∧ d.serverPid ≠ none

theorem findDisplayByName_set (m : Manager) (a : Nat) {f : Display → Display} (named : ∀ d, (f d).name = d.name)
    (name : String) :
    (m.set a f).findDisplayByName name = (m.findDisplayByName name).map fun d => if d.addr = a then f d else d := by
  unfold Manager.findDisplayByName Manager.set
  rw [List.find?_map]
  congr 2
  funext d
  by_cases here : d.addr = a
  · simp [here,named]
  · simp [here]

theorem markDisplays_keepsServer (m : Manager) (name : String) (keeps : KeepsServer m.markDisplays name) :
    KeepsServer m name := by
  have folded : ∀ (as : List Nat) (m : Manager),
      KeepsServer (as.foldl (fun m a => m.set a fun d => { d with stillThere := false }) m) name → KeepsServer m name := by
    intro as
    induction as with
    | nil => exact fun m keeps => keeps
    | cons a as ih =>
      intro m keeps
      obtain ⟨d',found,status,server⟩ := ih _ keeps
      dsimp only at found
      rw [findDisplayByName_set m a (f := fun d => { d with stillThere := false }) fun _ => rfl] at found
      obtain ⟨d,before,rfl⟩ := Option.map_eq_some_iff.mp found
      refine ⟨d,before,?_,?_⟩
      · split at status <;> exact status
      · split at server <;> exact server
  exact folded _ m keeps

theorem listed_status (lifetime : Lifetime) (name : String) (d : Display) :
    ((listed lifetime name d).status = .notRunning → d.status = .notRunning ∨ d.status = .reserve) ∧
    ((listed lifetime name d).status = .reserve →
      d.status = .reserve ∨ d.status = .notRunning ∧ lifetime = .dReserve) := by
  unfold listed
  split_ifs with reserve passive idle
  · simp [passive,reserve]
  · exact ⟨.inl,.inl⟩
  · simp [idle]
  · exact ⟨.inl,.inl⟩

theorem addServer_keepsServer (idle : ReserveIdle m) (lifetime : Lifetime) (listedName name : String)
    (keeps : KeepsServer (addServer lifetime m listedName) name) : KeepsServer m name := by
  obtain ⟨d',found,status,server⟩ := keeps
  unfold addServer at found
  cases there : m.findDisplayByName listedName with
  | some d =>
    rw [there] at found
    dsimp only at found
    rw [findDisplayByName_set m d.addr (f := listed lifetime listedName) fun _ => rfl] at found
    obtain ⟨e,foundE,rfl⟩ := Option.map_eq_some_iff.mp found
    have inside := List.mem_of_find?_eq_some foundE
    split at status
    · rename_i here
      rw [if_pos here] at server
      rcases (listed_status lifetime listedName e).1 status with passive | reserve
      · exact ⟨e,foundE,passive,server⟩
      · exact absurd (idle e inside reserve) server
    · rename_i other
      rw [if_neg other] at server
      exact ⟨e,foundE,status,server⟩
  | none =>
    rw [there] at found
    dsimp only at found
    rw [newDisplay_set] at found
    unfold Manager.findDisplayByName at found
    rw [List.find?_cons] at found
    split at found
    · cases found
      exact absurd rfl server
    · exact ⟨d',found,status,server⟩

theorem addServer_reserveIdle (coherent : Coherent m) (idle : ReserveIdle m) (lifetime : Lifetime)
    (name : String) (free : lifetime = .dReserve → ¬ KeepsServer m name) : ReserveIdle (addServer lifetime m name) := by
  unfold addServer
  cases there : m.findDisplayByName name with
  | some d =>
    have inside := List.mem_of_find?_eq_some there
    dsimp only
    rw [set_inside coherent inside]
    intro e among reserve
    rcases (mem_set inside).mp among with rfl | ⟨among,_⟩
    · rcases (listed_status lifetime name d).2 reserve with reserve | ⟨passive,benched⟩
      · exact idle d inside reserve
      · by_contra server
        exact free benched ⟨d,there,passive,server⟩
    · exact idle e among reserve
  | none =>
    dsimp only
    rw [newDisplay_set]
    exact List.forall_mem_cons.mpr ⟨fun _ => rfl,idle⟩

theorem benches_of_orderly {reserveServers : List String} (coherent : Coherent m) (idle : ReserveIdle m)
    (orderly : ∀ name ∈ reserveServers, ¬ KeepsServer m name) : Benches benching m reserveServers := by
  induction reserveServers generalizing m with
  | nil => trivial
  | cons name names ih =>
    have free : ¬ KeepsServer m name := orderly name List.mem_cons_self
    have bench : ∀ d, m.findDisplayByName name = some d → d.status = .notRunning → benching.bench m d.addr := by
      intro d found passive e among here
      rw [coherent.same (List.mem_of_find?_eq_some found) among here]
      by_contra server
      exact free ⟨d,found,passive,server⟩
    have added : Course benching (false,m) (false,addServer .dReserve m name) :=
      addServer_course coherent .dReserve name fun d found passive _ => bench d found passive
    refine ⟨bench,ih (added.coherent coherent) (addServer_reserveIdle coherent idle .dReserve name fun _ => free) ?_⟩
    exact fun other inside keeps =>
      orderly other (List.mem_cons_of_mem _ inside) (addServer_keepsServer idle .dReserve name other keeps)

theorem static_orderly (coherent : Coherent m) (idle : ReserveIdle m) (staticServers : List String) :
    Coherent (staticServers.foldl (addServer .dPermanent) m) ∧
      ReserveIdle (staticServers.foldl (addServer .dPermanent) m) ∧
      ∀ name, KeepsServer (staticServers.foldl (addServer .dPermanent) m) name → KeepsServer m name := by
  induction staticServers generalizing m with
  | nil => exact ⟨coherent,idle,fun _ keeps => keeps⟩
  | cons name names ih =>
    have added : Course benching (false,m) (false,addServer .dPermanent m name) :=
      addServer_course coherent .dPermanent name fun _ _ _ impossible => nomatch impossible
    obtain ⟨coherent',idle',kept⟩ := ih (added.coherent coherent)
      (addServer_reserveIdle coherent idle .dPermanent name fun impossible => nomatch impossible)
    exact ⟨coherent',idle',fun other keeps => addServer_keepsServer idle .dPermanent name other (kept other keeps)⟩

theorem Orderly.meets {w : World} {e : Event} (orderly : Orderly w m e) (coherent : Coherent m)
    (idle : ReserveIdle m) : Meets benching w m e := by
  cases e with
  | childExit pid code => exact ⟨fun _ _ _ _ => trivial,fun _ _ _ _ _ => trivial⟩
  | serverReady => exact fun _ _ _ _ _ => trivial
  | console => exact orderly
  | rescan hangup staticServers reserveServers =>
    have free : ∀ name ∈ reserveServers, ¬ KeepsServer m name := by
      rintro name inside ⟨d,found,passive,server⟩
      exact server (orderly name inside d found passive)
    cases hangup with
    | true =>
      have marked : Course benching (false,m) (false,m.markDisplays) := markDisplays_course coherent
      have markedIdle : ReserveIdle m.markDisplays :=
        (marked.preserves (P := fun s => Coherent s.2 ∧ ReserveIdle s.2)
          (fun _ _ go both => ⟨go.coherent both.1,go.reserveIdle both.1 both.2⟩) ⟨coherent,idle⟩).2
      obtain ⟨coherent',idle',kept⟩ := static_orderly (marked.coherent coherent) markedIdle staticServers
      exact benches_of_orderly coherent' idle' fun name inside keeps =>
        free name inside (markDisplays_keepsServer m name (kept name keeps))
    | false =>
      obtain ⟨coherent',idle',kept⟩ := static_orderly coherent idle staticServers
      exact benches_of_orderly coherent' idle' fun name inside keeps => free name inside (kept name keeps)
  | _ => trivial

theorem Reached.orderly (reached : Reached Orderly m) : Coherent m ∧ ReserveIdle m := by
  induction reached with
  | initial => exact ⟨initial_coherent,fun _ inside => nomatch inside⟩
  | step _ orderly stepped ih =>
    exact (step_course ih.1 (orderly.meets ih.1 ih.2) stepped).preserves (P := fun s => Coherent s.2 ∧ ReserveIdle s.2)
      (fun _ _ go both => ⟨go.coherent both.1,go.reserveIdle both.1 both.2⟩) ih

/-- Whatever processes end and whatever is asked for: status and processes agree in every state, unless a
    console login is begun while a display waits for its server, or a display with a server that is not
    running is made a reserve display. -/
theorem statuses_agree {m : Manager} (reached : Reached Orderly m) : StatusesAgree m := by
  obtain ⟨coherent,idle⟩ := reached.orderly
  refine ⟨?_,?_,?_,?_,?_,coherent.freed⟩
  · exact fun d inside => (coherent.each d inside).session
  · exact fun d inside => (coherent.each d inside).raiser
  · exact fun d inside => (coherent.each d inside).zombie
  · exact fun d inside => (coherent.each d inside).served
  · intro d inside passive
    have noSession : d.pid = none := by
      by_contra session
      have status := (coherent.each d inside).session session
      rcases passive with text | reserve
      · simp [text] at status
      · simp [reserve] at status
    rcases passive with text | reserve
    · exact ⟨noSession,(coherent.each d inside).text text⟩
    · exact ⟨noSession,idle d inside reserve⟩

theorem statuses_agree_comingUp : ∃ m, run initial comingUp = some m ∧ m.displays.length = 2 ∧ StatusesAgree m := by
  have follows : Follows Orderly initial comingUp :=
    ⟨nofun,fun _ _ => ⟨trivial,fun _ _ => ⟨trivial,fun _ _ => trivial⟩⟩⟩
  exact ⟨_,rfl,rfl,statuses_agree (Reached.initial.follows comingUp follows rfl)⟩

/-- Of three displays the first is up and the second coming up when a console login is asked for. The
    third goes to text mode, and then gets its server. -/
theorem console_served :
    ∃ m, run initial [(world 1,.rescan false [":0",":1",":2"] []),(world 10,.startDisplays),(world 12,.serverReady),
      (world 13,.connOk),(world 14,.startDisplays),(world 15,.console),(world 16,.startDisplays)] = some m ∧
    (∃ d ∈ m.displays, d.status = .textMode ∧ d.serverPid = some 16002) ∧ ¬ StatusesAgree m := by
  have served : ∃ m, run initial [(world 1,.rescan false [":0",":1",":2"] []),(world 10,.startDisplays),
      (world 12,.serverReady),(world 13,.connOk),(world 14,.startDisplays),(world 15,.console),
      (world 16,.startDisplays)] = some m ∧ ∃ d ∈ m.displays, d.status = .textMode ∧ d.serverPid = some 16002 :=
    ⟨_,rfl,by decide⟩
  obtain ⟨m,ran,d,inside,text,server⟩ := served
  refine ⟨m,ran,⟨d,inside,text,server⟩,?_⟩
  intro agree
  have idle := (agree.passive d inside (.inl text)).2
  rw [server] at idle
  cases idle

end KdeWorkspace.DisplayCycle
