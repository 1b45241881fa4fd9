import KdeWorkspace.ControlCommands

/-!
Who may request a shutdown. A display's socket takes requests for its session, and a
request that waits for the end of the session is promoted when the session ends.

What a display and its user may do is checked at two places, with two conditions.
Over every run from a daemon without requests, `run_authorised` says what a display
can do to the pending requests, whatever the others did before.
-/
namespace KdeWorkspace.ShutdownRights
open List

open ControlCommands

/-- The end of a session, as its process reports it (`D_UnUser`); also whether the
    greeter is to ask about the shutdown that the session requested. -/
def unUser (sys : System) (m : Manager) (d : Display) : Manager × Bool :=
  let m := m.setDisplay d.addr fun d => { d with userSess := -1 }
  if d.sdRec.how ≠ .none then
    if d.sdRec.force = .SHUT_ASK ∧ (m.anyUserLogins sys (-1) ∨ d.allowShutdown = .SHUT_ROOT) then (m,true)
    else
      let m := if m.sdRec.how = .none ∨ m.sdRec.force ≠ .SHUT_FORCE ∨ ¬ overrideForbidden m.sdRec d d.sdRec.uid
        then { m with sdRec := d.sdRec } else m
      (m.setDisplay d.addr fun d => { d with sdRec := { d.sdRec with how := .none, osname := none } },false)
  else (m,false)

/-- What comes from the display at the address: a line on its socket, or the end of its session. -/
inductive Event
  | command (addr : Nat) (line : String)
  | unUser (addr : Nat)

def Event.addr : Event → Nat
  | .command addr _ => addr
  | .unUser addr => addr

def displayAt (m : Manager) (addr : Nat) : Option Display := m.displays.find? (·.addr = addr)

/-- The daemon after an event of the display, and whether the greeter asks. -/
def act (sys : System) (m : Manager) (d : Display) : Event → Manager × Bool
  | .command _ line => ((processCtrl sys m (some d) line).1,false)
  | .unUser _ => unUser sys m d

/-- An event; there are none from displays that do not exist. -/
def step (m : Manager) (event : System × Event) : Manager :=
  match displayAt m event.2.addr with
  | none => m
  | some d => (act event.1 m d event.2).1

def run (m : Manager) (events : List (System × Event)) : Manager := events.foldl step m

/-! What the checks read of a display. -/

structure Account where
  addr : Nat
  userSess : Int
  sdRec : SdRec
  allowShutdown : Permission
  allowNuke : Permission

def account (d : Display) : Account := ⟨d.addr,d.userSess,d.sdRec,d.allowShutdown,d.allowNuke⟩

/-- The own request of the display at the address. -/
def localRec (m : Manager) (addr : Nat) : Option SdRec := (displayAt m addr).map (·.sdRec)

/-- The same requests and permissions, with further displays that have no request. -/
structure Extends (m m' : Manager) : Prop where
  accounts : ∃ new, m'.displays.map account = new ++ m.displays.map account ∧ ∀ a ∈ new, a.sdRec.how = .none
  distinct : (m.displays.map (·.addr)).Nodup → (m'.displays.map (·.addr)).Nodup

theorem Extends.refl (m : Manager) : Extends m m := ⟨⟨[],by simp,by simp⟩,id⟩

theorem Extends.trans {a b c : Manager} (first : Extends a b) (second : Extends b c) : Extends a c := by
  obtain ⟨new,accounts,none⟩ := first.accounts
  obtain ⟨newer,more,none'⟩ := second.accounts
  refine ⟨⟨newer ++ new,?_,?_⟩,second.distinct ∘ first.distinct⟩
  · rw [more,accounts,append_assoc]
  · intro a within
    exact (mem_append.mp within).elim (none' a) (none a)

variable {f : Display → Display} {m : Manager}

theorem Extends.map (keeps : ∀ d, account (f d) = account d) {m' : Manager}
    (displays : m'.displays = m.displays.map f) : Extends m m' := by
  refine ⟨⟨[],?_,by simp⟩,?_⟩
  · simp [displays,Function.comp_def,keeps]
  · have addr (d : Display) : (f d).addr = d.addr := congrArg Account.addr (keeps d)
    simp [displays,Function.comp_def,addr]

theorem Extends.setDisplay (m : Manager) (addr : Nat)
    (keeps : ∀ d, account (f d) = account d) : Extends m (m.setDisplay addr f) := by
  refine Extends.map (fun d => ?_) rfl
  by_cases same : d.addr = addr
  · rw [if_pos same,keeps]
  · rw [if_neg same]

theorem newDisplay_extends (m : Manager) (name : String) : Extends m (m.newDisplay name).1 := by
  refine ⟨⟨[⟨m.fresh,-1,.none,.SHUT_NONE,.SHUT_NONE⟩],rfl,by simp [SdRec.none]⟩,?_⟩
  intro distinct
  refine nodup_cons.mpr ⟨?_,distinct⟩
  intro within
  obtain ⟨d,within,same⟩ := mem_map.mp within
  exact Nat.lt_irrefl _ (same ▸ addr_lt_fresh within)

theorem addServer_extends (lifetime : Lifetime) (m : Manager) (server : String × Option String) :
    Extends m (m.addServer lifetime server) := by
  unfold Manager.addServer
  cases m.findDisplayByName server.1 with
  | some d => exact Extends.setDisplay m _ fun _ => rfl
  | none => exact (newDisplay_extends m server.1).trans (Extends.setDisplay _ _ fun _ => rfl)

theorem foldl_addServer_extends (lifetime : Lifetime) (servers : List (String × Option String)) (m : Manager) :
    Extends m (servers.foldl (Manager.addServer lifetime) m) := by
  induction servers generalizing m with
  | nil => exact .refl m
  | cons server servers ih => exact (addServer_extends lifetime m server).trans (ih _)

theorem cancelShutdown_extends (sys : System) (m : Manager) : Extends m (m.cancelShutdown sys) := by
  unfold Manager.cancelShutdown Manager.rescanConfigs
  cases sys.config with
  | none => exact .map (f := id) (fun _ => rfl) (map_id _).symm
  | some config =>
    refine Extends.trans ?_ ((foldl_addServer_extends .dPermanent _ _).trans (foldl_addServer_extends .dReserve _ _))
    exact .map (f := id) (fun _ => rfl) (map_id _).symm

theorem foldl_addServer_sdRec (lifetime : Lifetime) (servers : List (String × Option String)) (m : Manager) :
    (servers.foldl (Manager.addServer lifetime) m).sdRec = m.sdRec := by
  induction servers generalizing m with
  | nil => rfl
  | cons server servers ih =>
    rw [foldl_cons,ih]
    unfold Manager.addServer
    cases m.findDisplayByName server.1 <;> rfl

theorem cancelShutdown_sdRec (sys : System) (m : Manager) :
    (m.cancelShutdown sys).sdRec = { m.sdRec with how := .none, osname := none } := by
  unfold Manager.cancelShutdown Manager.rescanConfigs
  cases sys.config with
  | none => rfl
  | some config => simp only [foldl_addServer_sdRec]

theorem parseTimeout_not_ask {sys : System} {onDisplay : Bool} {third : String} {start : Int} {ar rest : List String}
    {timeout : Int} {force : Force} (parsed : parseTimeout sys onDisplay third start ar = .ok (timeout,force,rest)) :
    force ≠ .SHUT_ASK := by
  unfold parseTimeout at parsed
  rintro rfl
  split at parsed
  · cases parsed
  · split at parsed
    · simp only at parsed
      split at parsed
      · cases parsed
      · split at parsed
        · cases parsed
        · split_ifs at parsed <;> cases parsed
    · cases parsed

theorem bind_ok {ε α β : Type} {x : Except ε α} {f : α → Except ε β} {b : β} (bound : x >>= f = .ok b) :
    ∃ a, x = .ok a ∧ f a = .ok b := by
  cases x with
  | error e => cases bound
  | ok a => exact ⟨a,rfl,bound⟩

theorem parseShutdown_ask {sys : System} {onDisplay : Bool} {ar : List String} {sdr : SdRec}
    (parsed : parseShutdown sys onDisplay ar = .ok sdr) (ask : sdr.force = .SHUT_ASK) :
    sdr.how ≠ .none ∧ sdr.start = 0 := by
  unfold parseShutdown at parsed
  split at parsed
  · cases parsed
  · cases parsed
    cases ask
  · rename_i scope rest _
    split_ifs at parsed
    · cases rest <;> cases parsed
      cases ask
    · cases rest <;> cases parsed
      cases ask
  · rename_i type rest _ _ _
    obtain ⟨how,type,parsed⟩ := bind_ok parsed
    obtain ⟨⟨osname,rest⟩,_,parsed⟩ := bind_ok parsed
    have requested : how ≠ .none := by
      unfold parseType at type
      split_ifs at type <;> cases type <;> simp
    simp only at parsed
    split at parsed
    · cases parsed
    · split at parsed
      · obtain ⟨⟨timeout,force,rest⟩,times,parsed⟩ := bind_ok parsed
        obtain ⟨_,_,parsed⟩ := bind_ok parsed
        cases parsed
        exact absurd ask (parseTimeout_not_ask times)
      · obtain ⟨⟨timeout,force⟩,_,parsed⟩ := bind_ok parsed
        obtain ⟨_,_,parsed⟩ := bind_ok parsed
        cases parsed
        exact ⟨requested,rfl⟩

theorem processCtrl_display (sys : System) (m : Manager) (d : Display) (line : String) :
    ((processCtrl sys m (some d) line).1.sdRec = m.sdRec ∧ Extends m (processCtrl sys m (some d) line).1) ∨
      ∃ sdr, sdr.uid = sessionUser d ∧ (sdr.force = .SHUT_ASK → sdr.how ≠ .none ∧ sdr.start = 0) ∧
        OnDisplay sys m d sdr (processCtrl sys m (some d) line) := by
  have same : m.sdRec = m.sdRec ∧ Extends m m := ⟨rfl,.refl m⟩
  unfold processCtrl
  dsimp only
  split
  · exact .inl same
  · exact .inl same
  · unfold ctrlReserve
    split_ifs
    · exact .inl same
    · exact .inl same
    · cases started : m.startReserveDisplay with
      | none => exact .inl same
      | some m' =>
        obtain ⟨rd,_,changed⟩ := Option.map_eq_some_iff.mp started
        subst changed
        exact .inl ⟨rfl,Extends.setDisplay m _ fun _ => rfl⟩
  · exact .inl same
  · unfold ctrlShutdown
    split
    · exact .inl same
    · cases parsed : parseShutdown sys (some d).isSome (arguments line) with
      | error => exact .inl same
      | ok sdr =>
        have ask := parseShutdown_ask parsed
        exact .inr ⟨{ sdr with uid := sessionUser d },rfl,ask,shutdownOnDisplay_spec sys m d sdr⟩
  · exact .inl same
  · unfold ctrlLock
    split_ifs
    · exact .inl same
    · exact .inl ⟨rfl,.map (f := id) (fun _ => rfl) (map_id _).symm⟩
  · unfold ctrlLock
    split_ifs
    · exact .inl same
    · exact .inl ⟨rfl,.map (f := id) (fun _ => rfl) (map_id _).symm⟩
  · unfold ctrlSuicide
    split_ifs
    · exact .inl same
    · exact .inl ⟨rfl,Extends.setDisplay m _ fun _ => rfl⟩
    · exact .inl same
  all_goals first
    | contradiction
    | exact .inl same

/-- The session of a display is over. -/
def closed (d : Display) : Display := { d with userSess := -1 }

/-- The session of a display is over, and its request gone. -/
def cleared (d : Display) : Display := { d with userSess := -1, sdRec := { d.sdRec with how := .none, osname := none } }

theorem setDisplay_twice (m : Manager) (addr : Nat) {f g : Display → Display} (keeps : ∀ d, (f d).addr = d.addr) :
    (m.setDisplay addr f).setDisplay addr g = m.setDisplay addr fun d => g (f d) := by
  simp only [Manager.setDisplay,map_map]
  congr 2
  funext d
  by_cases same : d.addr = addr <;> simp [same,keeps]

theorem setDisplay_cleared (m : Manager) (addr : Nat) : ((m.setDisplay addr closed).setDisplay addr fun d =>
    { d with sdRec := { d.sdRec with how := .none, osname := none } }) = m.setDisplay addr cleared :=
  setDisplay_twice m addr fun _ => rfl

/-- What the end of a session does, and what is checked before. -/
inductive SessionEnd (m : Manager) (d : Display) : Manager × Bool → Prop
  | nothing (how : d.sdRec.how = .none) : SessionEnd m d (m.setDisplay d.addr closed,false)
  | asks (how : d.sdRec.how ≠ .none) (force : d.sdRec.force = .SHUT_ASK) :
      SessionEnd m d (m.setDisplay d.addr closed,true)
  | promoted (how : d.sdRec.how ≠ .none) (quiet : d.allowShutdown = .SHUT_ROOT → d.sdRec.force ≠ .SHUT_ASK)
      (overrides : ¬ (m.sdRec.how ≠ .none ∧ m.sdRec.force = .SHUT_FORCE ∧ overrideForbidden m.sdRec d d.sdRec.uid)) :
      SessionEnd m d ({ m.setDisplay d.addr cleared with sdRec := d.sdRec },false)
  | dropped (how : d.sdRec.how ≠ .none) (quiet : d.allowShutdown = .SHUT_ROOT → d.sdRec.force ≠ .SHUT_ASK)
      (overrides : m.sdRec.how ≠ .none ∧ m.sdRec.force = .SHUT_FORCE ∧ overrideForbidden m.sdRec d d.sdRec.uid) :
      SessionEnd m d (m.setDisplay d.addr cleared,false)

theorem unUser_spec (sys : System) (m : Manager) (d : Display) : SessionEnd m d (unUser sys m d) := by
  unfold unUser
  simp only
  split_ifs with how asks free
  · exact .asks how asks.1
  · have quiet (root : d.allowShutdown = .SHUT_ROOT) (force : d.sdRec.force = .SHUT_ASK) : False :=
      asks ⟨force,.inr root⟩
    have overrides : ¬ (m.sdRec.how ≠ .none ∧ m.sdRec.force = .SHUT_FORCE ∧ overrideForbidden m.sdRec d d.sdRec.uid) := by
      rintro ⟨pending,force,forbidden⟩
      rcases free with none | other | may
      · exact pending none
      · exact other force
      · exact may forbidden
    have result := SessionEnd.promoted how quiet overrides
    rw [← setDisplay_cleared] at result
    exact result
  · have quiet (root : d.allowShutdown = .SHUT_ROOT) (force : d.sdRec.force = .SHUT_ASK) : False :=
      asks ⟨force,.inr root⟩
    have overrides : m.sdRec.how ≠ .none ∧ m.sdRec.force = .SHUT_FORCE ∧ overrideForbidden m.sdRec d d.sdRec.uid := by
      rw [not_or,not_or,not_not,not_not] at free
      exact free
    have result := SessionEnd.dropped how quiet overrides
    rw [← setDisplay_cleared] at result
    exact result
  · exact .nothing (not_not.mp how)

variable {d : Display}

theorem displayAt_mem {addr : Nat} (found : displayAt m addr = some d) : d ∈ m.displays ∧ d.addr = addr :=
  ⟨mem_of_find?_eq_some found,by simpa using find?_some found⟩

theorem displayAt_of_mem (distinct : (m.displays.map (·.addr)).Nodup)
    (within : d ∈ m.displays) : displayAt m d.addr = some d := by
  unfold displayAt
  generalize m.displays = displays at distinct within
  induction displays with
  | nil => cases within
  | cons other displays ih =>
    obtain ⟨absent,distinct⟩ := nodup_cons.mp distinct
    rcases mem_cons.mp within with same | within
    · simp [same]
    · have differ : other.addr ≠ d.addr := by
        intro same
        exact absent (mem_map.mpr ⟨d,within,same.symm⟩)
      rw [find?_cons_of_neg (by simpa using differ)]
      exact ih distinct within

theorem displayAt_setDisplay (m : Manager) (addr other : Nat) (keeps : ∀ d, (f d).addr = d.addr) :
    displayAt (m.setDisplay addr f) other = (displayAt m other).map fun d => if d.addr = addr then f d else d := by
  have same (d : Display) : (if d.addr = addr then f d else d).addr = d.addr := by
    split_ifs
    · exact keeps d
    · rfl
  simp [displayAt,Manager.setDisplay,find?_map,Function.comp_def,same]

/-- What was checked of the request of a display. -/
structure Granted (d : Display) : Prop where
  shutdown : d.allowShutdown ≠ .SHUT_NONE
  root : d.allowShutdown = .SHUT_ROOT → sessionUser d ≠ 0 → d.sdRec.force = .SHUT_ASK
  user : d.userSess ≥ 0 ∨ d.sdRec.force ≠ .SHUT_ASK → d.sdRec.uid = sessionUser d
  nuke : d.sdRec.force = .SHUT_FORCE → ¬ nukeForbidden d d.sdRec.uid

/-- Displays are told apart by their addresses, and their requests were checked. -/
structure Sound (m : Manager) : Prop where
  distinct : (m.displays.map (·.addr)).Nodup
  granted : ∀ d ∈ m.displays, d.sdRec.how ≠ .none → Granted d

theorem Granted.of_account {d d' : Display} (same : account d' = account d) (granted : Granted d) : Granted d' := by
  simp only [account,Account.mk.injEq] at same
  obtain ⟨_,userSess,sdRec,allowShutdown,allowNuke⟩ := same
  refine ⟨?_,?_,?_,?_⟩
  · simpa [allowShutdown] using granted.shutdown
  · simpa [allowShutdown,sessionUser,userSess,sdRec] using granted.root
  · simpa [sessionUser,userSess,sdRec] using granted.user
  · simpa [nukeForbidden,allowNuke,sdRec] using granted.nuke

theorem Extends.sound {m m' : Manager} (extended : Extends m m') (sound : Sound m) : Sound m' := by
  obtain ⟨new,accounts,none⟩ := extended.accounts
  refine ⟨extended.distinct sound.distinct,?_⟩
  intro d within pending
  have listed : account d ∈ new ++ m.displays.map account := accounts ▸ mem_map_of_mem within
  rcases mem_append.mp listed with fresh | known
  · exact absurd (none _ fresh) pending
  · obtain ⟨before,within,same⟩ := mem_map.mp known
    have sdRec : before.sdRec = d.sdRec := congrArg Account.sdRec same
    exact (sound.granted before within (sdRec ▸ pending)).of_account same.symm

theorem Extends.localRec {m m' : Manager} (extended : Extends m m') (sound : Sound m)
    (within : d ∈ m.displays) : localRec m' d.addr = some d.sdRec := by
  obtain ⟨new,accounts,_⟩ := extended.accounts
  have listed : account d ∈ m'.displays.map account := accounts ▸ mem_append_right new (mem_map_of_mem within)
  obtain ⟨after,within',same⟩ := mem_map.mp listed
  have addr : after.addr = d.addr := congrArg Account.addr same
  have sdRec : after.sdRec = d.sdRec := congrArg Account.sdRec same
  rw [ShutdownRights.localRec,← addr,displayAt_of_mem (extended.distinct sound.distinct) within']
  exact congrArg some sdRec

theorem Sound.setDisplay (sound : Sound m) (within : d ∈ m.displays) (keeps : ∀ d, (f d).addr = d.addr)
    (granted : (f d).sdRec.how ≠ .none → Granted (f d)) : Sound (m.setDisplay d.addr f) := by
  have addr (other : Display) : (if other.addr = d.addr then f other else other).addr = other.addr := by
    split_ifs
    · exact keeps other
    · rfl
  refine ⟨?_,?_⟩
  · simpa [Manager.setDisplay,Function.comp_def,addr] using sound.distinct
  · intro other within' pending
    obtain ⟨before,listed,changed⟩ := mem_map.mp within'
    subst changed
    by_cases same : before.addr = d.addr
    · have equal : before = d := by
        have found := displayAt_of_mem sound.distinct listed
        rw [same,displayAt_of_mem sound.distinct within] at found
        exact (Option.some.inj found).symm
      subst equal
      simp only [if_true] at pending ⊢
      exact granted pending
    · rw [if_neg same] at pending ⊢
      exact sound.granted before listed pending

theorem localRec_setDisplay (sound : Sound m) (within : d ∈ m.displays) (keeps : ∀ d, (f d).addr = d.addr) :
    localRec (m.setDisplay d.addr f) d.addr = some (f d).sdRec := by
  rw [localRec,displayAt_setDisplay m _ _ keeps,displayAt_of_mem sound.distinct within]
  simp

theorem localRec_others (sound : Sound m) {addr : Nat}
    (keeps : ∀ d, (f d).addr = d.addr) {other : Display} (within : other ∈ m.displays) (differ : other.addr ≠ addr) :
    localRec (m.setDisplay addr f) other.addr = some other.sdRec := by
  rw [localRec,displayAt_setDisplay m _ _ keeps,displayAt_of_mem sound.distinct within]
  simp [differ]

/-- A forced shutdown is one that the display allows its user. -/
def MayForce (d : Display) (sdr : SdRec) : Prop :=
  sdr.how ≠ .none → sdr.force = .SHUT_FORCE → sdr.uid = sessionUser d ∧ ¬ nukeForbidden d sdr.uid

/-- The user for whom an event of the display acts: that of the session, or the one whose request is promoted. -/
def requester (d : Display) : Event → Int
  | .command _ _ => sessionUser d
  | .unUser _ => d.sdRec.uid

/-- What an event of the display `d` does to the requests, its own and the global one. -/
structure Authorised (m m' : Manager) (d : Display) (event : Event) (asked : Bool) : Prop where
  none : d.allowShutdown = .SHUT_NONE → m'.sdRec = m.sdRec ∧ localRec m' d.addr = some d.sdRec
  root : d.allowShutdown = .SHUT_ROOT → sessionUser d ≠ 0 → m'.sdRec = m.sdRec ∧
    (localRec m' d.addr = some d.sdRec ∨ ∃ line sdr, event = .command d.addr line ∧
      localRec m' d.addr = some sdr ∧ sdr.how ≠ .none ∧ sdr.force = .SHUT_ASK)
  neverAsk : d.allowShutdown = .SHUT_ROOT → m'.sdRec = m.sdRec ∨ m'.sdRec.how = .none ∨ m'.sdRec.force ≠ .SHUT_ASK
  ask : d.allowShutdown = .SHUT_ROOT → event = .unUser d.addr → d.sdRec.how ≠ .none → d.sdRec.force = .SHUT_ASK →
    m'.sdRec = m.sdRec ∧ localRec m' d.addr = some d.sdRec ∧ asked = true
  forced : m'.sdRec = m.sdRec ∨ MayForce d m'.sdRec
  forcedLocal : ∃ sdr, localRec m' d.addr = some sdr ∧ (sdr = d.sdRec ∨ MayForce d sdr)
  override : m.sdRec.how ≠ .none → m.sdRec.force = .SHUT_FORCE → m.sdRec.uid ≠ requester d event →
    nukeForbidden d (requester d event) → m'.sdRec = m.sdRec
  own : d.sdRec.how ≠ .none → d.userSess ≥ 0 → d.sdRec.uid = d.userSess
  others : ∀ other ∈ m.displays, other.addr ≠ d.addr → localRec m' other.addr = some other.sdRec

section

variable {m : Manager} {d : Display}

theorem Sound.own (sound : Sound m) (within : d ∈ m.displays) (pending : d.sdRec.how ≠ .none)
    (session : d.userSess ≥ 0) : d.sdRec.uid = d.userSess := by
  rw [(sound.granted d within pending).user (.inl session),sessionUser,if_pos session]

theorem Extends.authorised {m' : Manager} (extended : Extends m m') (sound : Sound m) (within : d ∈ m.displays)
    (same : m'.sdRec = m.sdRec) (event : Event) {asked : Bool} (asks : event = .unUser d.addr → asked = true ∨
      d.sdRec.how = .none) : Authorised m m' d event asked := by
  have localRec := extended.localRec sound within
  refine ⟨?_,?_,?_,?_,.inl same,⟨_,localRec,.inl rfl⟩,?_,sound.own within,?_⟩
  · exact fun _ => ⟨same,localRec⟩
  · exact fun _ _ => ⟨same,.inl localRec⟩
  · exact fun _ => .inl same
  · intro _ ends pending _
    exact ⟨same,localRec,(asks ends).resolve_right pending⟩
  · exact fun _ _ _ _ => same
  · exact fun other within _ => extended.localRec sound within

theorem local_authorised (sound : Sound m) (within : d ∈ m.displays) {sdr : SdRec} (line : String)
    (allowed : ¬ shutdownForbidden d sdr) (uid : sdr.uid = sessionUser d)
    (ask : sdr.force = .SHUT_ASK → sdr.how ≠ .none ∧ sdr.start = 0)
    (nuke : ¬ (sdr.how ≠ .none ∧ sdr.force = .SHUT_FORCE ∧ nukeForbidden d sdr.uid)) :
    Authorised m (m.setDisplay d.addr fun d => { d with sdRec := sdr }) d (.command d.addr line) false := by
  have stored := localRec_setDisplay sound within (f := fun d => { d with sdRec := sdr }) fun _ => rfl
  have mayForce : MayForce d sdr := fun how force => ⟨uid,fun forbidden => nuke ⟨how,force,forbidden⟩⟩
  refine ⟨?_,?_,fun _ => .inl rfl,?_,.inl rfl,⟨sdr,stored,.inr mayForce⟩,fun _ _ _ _ => rfl,sound.own within,?_⟩
  · intro none
    exact absurd (.inl none) allowed
  · intro root user
    have force : sdr.force = .SHUT_ASK := by
      by_contra other
      exact allowed (.inr ⟨root,uid ▸ user,other⟩)
    exact ⟨rfl,.inr ⟨line,sdr,rfl,stored,(ask force).1,force⟩⟩
  · intro _ ends
    cases ends
  · intro other within' differ
    exact localRec_others sound (f := fun d => { d with sdRec := sdr }) (fun _ => rfl) within' differ

theorem global_authorised {m' : Manager} (sound : Sound m) (within : d ∈ m.displays) (extended : Extends m m')
    {sdr : SdRec} (line : String) (allowed : ¬ shutdownForbidden d sdr) (uid : sdr.uid = sessionUser d)
    (ask : sdr.force ≠ .SHUT_ASK)
    (overrides : ¬ (m.sdRec.how ≠ .none ∧ m.sdRec.force = .SHUT_FORCE ∧ overrideForbidden m.sdRec d sdr.uid))
    (installed : m'.sdRec.how = .none ∨ m'.sdRec = sdr ∧ ¬ (sdr.force = .SHUT_FORCE ∧ nukeForbidden d sdr.uid)) :
    Authorised m m' d (.command d.addr line) false := by
  have localRec := extended.localRec sound within
  refine ⟨?_,?_,?_,?_,?_,⟨_,localRec,.inl rfl⟩,?_,sound.own within,?_⟩
  · intro none
    exact absurd (.inl none) allowed
  · intro root user
    exact absurd (.inr ⟨root,uid ▸ user,ask⟩) allowed
  · intro _
    rcases installed with cancelled | ⟨same,_⟩
    · exact .inr (.inl cancelled)
    · exact .inr (.inr (same ▸ ask))
  · intro _ ends
    cases ends
  · refine .inr fun how force => ?_
    rcases installed with cancelled | ⟨same,nuke⟩
    · exact absurd cancelled how
    · rw [same] at force ⊢
      exact ⟨uid,fun forbidden => nuke ⟨force,forbidden⟩⟩
  · intro how force other forbidden
    refine absurd ⟨how,force,?_⟩ overrides
    rw [uid]
    rcases forbidden with none | root
    · exact .inl ⟨none,other⟩
    · exact .inr root
  · exact fun other within _ => extended.localRec sound within

theorem command_authorised (sys : System) (sound : Sound m) (within : d ∈ m.displays) (line : String) :
    Authorised m (processCtrl sys m (some d) line).1 d (.command d.addr line) false := by
  rcases processCtrl_display sys m d line with ⟨same,extended⟩ | ⟨sdr,uid,ask,spec⟩
  · refine extended.authorised sound within same _ ?_
    intro ends
    cases ends
  · have notAsk (start : sdr.start ≠ 0) : sdr.force ≠ .SHUT_ASK := fun force => start (ask force).2
    generalize processCtrl sys m (some d) line = result at spec ⊢
    cases spec with
    | refused msg =>
      refine (Extends.refl m).authorised sound within rfl _ ?_
      intro ends
      cases ends
    | cancelLocal allowed how start =>
      exact local_authorised sound within line allowed uid ask fun pending => pending.1 how
    | requestLocal allowed overrides nuke how start =>
      exact local_authorised sound within line allowed uid ask fun pending => nuke pending.2
    | cancelGlobal allowed overrides how start =>
      refine global_authorised sound within (cancelShutdown_extends sys m) line allowed uid (notAsk start) overrides (.inl ?_)
      rw [cancelShutdown_sdRec]
    | requestGlobal allowed overrides nuke how start =>
      refine global_authorised sound within ?_ line allowed uid (notAsk start) overrides (.inr ⟨rfl,nuke⟩)
      exact .map (f := id) (fun _ => rfl) (map_id _).symm

theorem closed_authorised {asked : Bool} (sound : Sound m) (within : d ∈ m.displays)
    (asks : d.sdRec.how ≠ .none → asked = true) :
    Authorised m (m.setDisplay d.addr closed) d (.unUser d.addr) asked := by
  have kept : localRec (m.setDisplay d.addr closed) d.addr = some d.sdRec :=
    localRec_setDisplay sound within fun _ => rfl
  refine ⟨?_,?_,?_,?_,.inl rfl,⟨_,kept,.inl rfl⟩,fun _ _ _ _ => rfl,sound.own within,?_⟩
  · exact fun _ => ⟨rfl,kept⟩
  · exact fun _ _ => ⟨rfl,.inl kept⟩
  · exact fun _ => .inl rfl
  · exact fun _ _ how _ => ⟨rfl,kept,asks how⟩
  · intro other within' differ
    exact localRec_others sound (f := closed) (fun _ => rfl) within' differ

theorem cleared_authorised {m' : Manager} (sound : Sound m) (within : d ∈ m.displays)
    (displays : m'.displays = (m.setDisplay d.addr cleared).displays) (how : d.sdRec.how ≠ .none)
    (quiet : d.allowShutdown = .SHUT_ROOT → d.sdRec.force ≠ .SHUT_ASK)
    (promoted : m'.sdRec = m.sdRec ∨ m'.sdRec = d.sdRec ∧
      ¬ (m.sdRec.how ≠ .none ∧ m.sdRec.force = .SHUT_FORCE ∧ overrideForbidden m.sdRec d d.sdRec.uid)) :
    Authorised m m' d (.unUser d.addr) false := by
  have granted := sound.granted d within how
  have same (addr : Nat) : localRec m' addr = localRec (m.setDisplay d.addr cleared) addr := by
    rw [localRec,localRec,displayAt,displayAt,displays]
  have gone : localRec m' d.addr = some (cleared d).sdRec :=
    (same _).trans (localRec_setDisplay sound within fun _ => rfl)
  refine ⟨?_,?_,?_,?_,?_,⟨_,gone,.inr fun some => absurd rfl some⟩,?_,sound.own within,?_⟩
  · intro none
    exact absurd none granted.shutdown
  · intro root user
    exact absurd (granted.root root user) (quiet root)
  · intro root
    rcases promoted with same | ⟨same,_⟩
    · exact .inl same
    · exact .inr (.inr (same ▸ quiet root))
  · intro root _ _ force
    exact absurd force (quiet root)
  · rcases promoted with same | ⟨same,_⟩
    · exact .inl same
    · rw [same]
      refine .inr fun _ force => ⟨granted.user (.inr ?_),granted.nuke force⟩
      rw [force]
      simp
  · intro pending force other forbidden
    rcases promoted with same | ⟨_,overrides⟩
    · exact same
    · refine absurd ⟨pending,force,?_⟩ overrides
      rcases forbidden with none | root
      · exact .inl ⟨none,other⟩
      · exact .inr root
  · intro other within' differ
    rw [same]
    exact localRec_others sound (f := cleared) (fun _ => rfl) within' differ

theorem unUser_authorised (sys : System) (sound : Sound m) (within : d ∈ m.displays) :
    Authorised m (unUser sys m d).1 d (.unUser d.addr) (unUser sys m d).2 := by
  have spec := unUser_spec sys m d
  generalize unUser sys m d = result at spec ⊢
  cases spec with
  | nothing how => exact closed_authorised sound within fun pending => absurd how pending
  | asks how force => exact closed_authorised sound within fun _ => rfl
  | promoted how quiet overrides => exact cleared_authorised sound within rfl how quiet (.inr ⟨rfl,overrides⟩)
  | dropped how quiet overrides => exact cleared_authorised sound within rfl how quiet (.inl rfl)

theorem command_sound (sys : System) (sound : Sound m) (within : d ∈ m.displays) (line : String) :
    Sound (processCtrl sys m (some d) line).1 := by
  rcases processCtrl_display sys m d line with ⟨_,extended⟩ | ⟨sdr,uid,ask,spec⟩
  · exact extended.sound sound
  · generalize processCtrl sys m (some d) line = result at spec ⊢
    cases spec with
    | refused msg => exact sound
    | cancelLocal allowed how start =>
      exact sound.setDisplay (f := fun d => { d with sdRec := sdr }) within (fun _ => rfl) fun pending => absurd how pending
    | requestLocal allowed overrides nuke how start =>
      refine sound.setDisplay (f := fun d => { d with sdRec := sdr }) within (fun _ => rfl) fun _ => ⟨?_,?_,?_,?_⟩
      · exact fun none => allowed (.inl none)
      · intro root user
        by_contra other
        exact allowed (.inr ⟨root,uid ▸ user,other⟩)
      · exact fun _ => uid
      · exact fun force forbidden => nuke ⟨force,forbidden⟩
    | cancelGlobal allowed overrides how start => exact (cancelShutdown_extends sys m).sound sound
    | requestGlobal allowed overrides nuke how start => exact ⟨sound.distinct,sound.granted⟩

theorem unUser_sound (sys : System) (sound : Sound m) (within : d ∈ m.displays) : Sound (unUser sys m d).1 := by
  have spec := unUser_spec sys m d
  generalize unUser sys m d = result at spec ⊢
  have cleared_sound : Sound (m.setDisplay d.addr cleared) :=
    sound.setDisplay within (fun _ => rfl) fun pending => absurd rfl pending
  cases spec with
  | nothing how => exact sound.setDisplay within (fun _ => rfl) fun pending => absurd how pending
  | asks how force =>
    have granted := sound.granted d within how
    refine sound.setDisplay within (fun _ => rfl) fun _ => ⟨granted.shutdown,?_,?_,granted.nuke⟩
    · exact fun _ _ => force
    · rintro (session | other)
      · cases session
      · exact absurd force other
  | promoted how quiet overrides => exact ⟨cleared_sound.distinct,cleared_sound.granted⟩
  | dropped how quiet overrides => exact cleared_sound

end

theorem step_sound {m : Manager} (sound : Sound m) (event : System × Event) : Sound (step m event) := by
  unfold step
  cases found : displayAt m event.2.addr with
  | none => exact sound
  | some d =>
    obtain ⟨within,_⟩ := displayAt_mem found
    obtain ⟨sys,event⟩ := event
    cases event with
    | command addr line => exact command_sound sys sound within line
    | unUser addr => exact unUser_sound sys sound within

theorem run_sound {m : Manager} (sound : Sound m) (events : List (System × Event)) : Sound (run m events) := by
  induction events generalizing m with
  | nil => exact sound
  | cons event events ih => exact ih (step_sound sound event)

/-- Displays with addresses of their own that have no request. -/
structure Starts (m : Manager) : Prop where
  distinct : (m.displays.map (·.addr)).Nodup
  quiet : ∀ d ∈ m.displays, d.sdRec.how = .none

/-- After any events from a start without requests, what the next one does to the
    requests is what the display it comes from may do for its user. -/
theorem run_authorised {m : Manager} (starts : Starts m) (events : List (System × Event)) (sys : System)
    {event : Event} {d : Display} (acts : displayAt (run m events) event.addr = some d) :
    Authorised (run m events) (run m (events ++ [(sys,event)])) d event (act sys (run m events) d event).2 := by
  have sound : Sound (run m events) :=
    run_sound ⟨starts.distinct,fun d within pending => absurd (starts.quiet d within) pending⟩ events
  have next : run m (events ++ [(sys,event)]) = (act sys (run m events) d event).1 := by
    rw [run,foldl_append,foldl_cons,foldl_nil]
    change step (run m events) (sys,event) = _
    simp only [step,acts]
  obtain ⟨within,addr⟩ := displayAt_mem acts
  rw [next]
  cases event with
  | command at' line =>
    change d.addr = at' at addr
    subst addr
    exact command_authorised sys sound within line
  | unUser at' =>
    change d.addr = at' at addr
    subst addr
    exact unUser_authorised sys sound within

/-- A seat with a session of an ordinary user, who may only ask for a shutdown. -/
def seat : Display :=
  ⟨1,":0",none,⟨true,.dFromFile,.dPermanent⟩,.running,.DS_RESTART,100,101,7,1000,.none,.SHUT_ROOT,.SHUT_NONE,[]⟩

def seats : Manager := ⟨[seat],[⟨":0",0,false,none,none,none⟩],.none,false,false,false,false⟩

theorem run_authorised_seat :
    Authorised (run seats [(bare,.command 1 "shutdown\thalt\task")])
      (run seats ([(bare,.command 1 "shutdown\thalt\task")] ++ [(bare,.unUser 1)]))
      { seat with sdRec := ⟨.halt,.SHUT_ASK,1000,0,0,none⟩ } (.unUser 1) true := by
  have starts : Starts seats := ⟨by decide,by decide⟩
  have acts : displayAt (run seats [(bare,.command 1 "shutdown\thalt\task")]) 1 =
      some { seat with sdRec := ⟨.halt,.SHUT_ASK,1000,0,0,none⟩ } := by decide +kernel
  exact run_authorised starts _ bare acts

end KdeWorkspace.ShutdownRights
