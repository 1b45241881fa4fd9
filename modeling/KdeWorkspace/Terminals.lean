import KdeWorkspace.DisplayStarts
import KdeWorkspace.TerminalFrames

/-!
The virtual terminals of the displays. A display that has lost its turn to a dying one waits for the
terminal of that, and the dying one points to it.

The pointer is not taken back when the display that waits is stopped. And a terminal is given away
without a look at everyone who holds on to it: a fixed one without any look, a dynamic one past a zombie
that has promised it already. `Careful` excludes these steps, and then no two displays share a
terminal (`terminals_kept`).
-/
namespace KdeWorkspace.DisplayCycle
open List
open ControlCommands (DisplayStatus Lifetime SdRec TO_INF)
open Manager

def Followed (m : Manager) (a : Nat) : Prop := ∃ d ∈ m.displays, d.follower = some a

/-- Who waits is named by one display only, and only one display holds on to a terminal. -/
structure Booked (m : Manager) : Prop where
  unique : Unique m
  awaited : Awaited (Followed m) m
  alone : ∀ d ∈ m.displays, ∀ e ∈ m.displays, ∀ f, d.follower = some f → e.follower = some f → e.addr = d.addr
  single : ∀ d ∈ m.displays, ∀ e ∈ m.displays, Holds m d → Holds m e → 0 < d.serverVT →
    e.serverVT = d.serverVT → e.addr = d.addr

variable {m m' : Manager}

theorem Framed.followed {F : Nat → Prop} (framed : Framed F m m') {a : Nat} (followed : Followed m' a) :
    Followed m a := by
  obtain ⟨d',inside,named⟩ := followed
  rcases framed.origin d' inside with ⟨d,among,kept⟩ | ⟨-,none⟩
  · exact ⟨d,among,kept.follower.symm.trans named⟩
  · cases none.symm.trans named

theorem Booked.framed (booked : Booked m) (framed : Framed (Followed m) m m') : Booked m' := by
  refine ⟨framed.unique booked.unique,?_,?_,?_⟩
  · exact fun a followed => framed.awaited booked.awaited a (framed.followed followed)
  · intro d' inside e' among f named named'
    rcases framed.origin d' inside with ⟨d,start,kept⟩ | ⟨-,none⟩
    · rcases framed.origin e' among with ⟨e,start',kept'⟩ | ⟨-,none⟩
      · rw [kept.addr,kept'.addr]
        exact booked.alone d start e start' f (kept.follower.symm.trans named) (kept'.follower.symm.trans named')
      · cases none.symm.trans named'
    · cases none.symm.trans named
  · intro d' inside e' among holds holds' positive same
    rcases framed.origin d' inside with ⟨d,start,kept⟩ | ⟨none,-⟩
    · rcases framed.origin e' among with ⟨e,start',kept'⟩ | ⟨none,-⟩
      · rw [kept.addr,kept'.addr]
        rw [kept.serverVT] at positive same
        rw [kept'.serverVT] at same
        exact booked.single d start e start' (kept.holds positive holds) (kept'.holds (same ▸ positive) holds') positive same
      · omega
    · omega

theorem inspect_inherit {tvt : Nat} {displays : List Display} {z : Nat} (found : inspect tvt displays = .inherit z) :
    ∃ cd ∈ displays, cd.addr = z ∧ cd.serverVT = tvt ∧ cd.status = .zombie := by
  induction displays with
  | nil => cases found
  | cons cd rest ih =>
    unfold inspect at found
    have later (found : inspect tvt rest = .inherit z) :
        ∃ cd' ∈ cd :: rest, cd'.addr = z ∧ cd'.serverVT = tvt ∧ cd'.status = .zombie := by
      obtain ⟨cd',inside,is⟩ := ih found
      exact ⟨cd',mem_cons_of_mem _ inside,is⟩
    split at found
    · cases found
    · split at found
      · rename_i holds
        split at found
        · cases found
        · rename_i dying
          split at found
          · cases found
            refine ⟨cd,mem_cons_self,rfl,holds,?_⟩
            by_contra alive
            exact dying (.inl alive)
          · exact later found
      · exact later found

/-- The terminal that a display looking for one gets, which may be that of a zombie. -/
def suits (w : World) (m : Manager) (c : Nat × Bool) : Bool :=
  match inspect c.1 m.displays with
  | .taken => false
  | .inherit _ => true
  | .free => ¬c.2 ∨ ¬w.busyVT c.1

theorem pickVT_eq (w : World) (m : Manager) (a : Nat) (tvts : List (Nat × Bool)) :
    m.pickVT w a tvts = match tvts.find? (suits w m) with
      | none => m
      | some (tvt,_) => match inspect tvt m.displays with
        | .inherit z => (m.set a fun d => { d with serverVT := -1 }).set z fun cd => { cd with follower := some a }
        | _ => m.set a fun d => { d with serverVT := tvt } := by
  induction tvts with
  | nil => rfl
  | cons c rest ih =>
    obtain ⟨tvt,volun⟩ := c
    unfold pickVT
    rw [find?_cons]
    cases found : inspect tvt m.displays with
    | taken => simpa [suits,found] using ih
    | inherit z => simp [suits,found]
    | free =>
      by_cases usable : ¬volun ∨ ¬w.busyVT tvt
      · have fits : suits w m (tvt,volun) = true := by simpa [suits,found] using usable
        rw [fits]
        simp only [found,if_pos usable]
      · have fits : suits w m (tvt,volun) = false := by simpa [suits,found] using usable
        rw [fits,if_neg usable]
        exact ih

/-- Nobody holds on to the terminal. -/
def Untaken (m : Manager) (vt : Int) : Prop := ∀ e ∈ m.displays, e.serverVT = vt → ¬Holds m e

/-- A display that is made to wait has no session and no server on its way. -/
def Display.patient (m : Manager) (d : Display) : Prop :=
  d.pid = none ∧ d.serverStatus ≠ .awaiting ∧ (m.startingServer = some d.addr → d.serverStatus = .ignore)

instance (m : Manager) (d : Display) : Decidable (Holds m d) := inferInstanceAs (Decidable (_ ∨ _ ∨ _ ∨ _ ∨ _ ∨ _))

instance (m : Manager) (a : Nat) : Decidable (Followed m a) := inferInstanceAs (Decidable (∃ d ∈ m.displays, _))

instance (m : Manager) (vt : Int) : Decidable (Untaken m vt) := inferInstanceAs (Decidable (∀ e ∈ m.displays, _))

instance (m : Manager) (d : Display) : Decidable (d.patient m) := inferInstanceAs (Decidable (_ ∧ _ ∧ _))

/-- The zombie that the display waits for is the only one to hold on to the terminal, or nobody does. -/
def Manager.Inspection.Fits (m : Manager) (d : Display) (tvt : Nat) : Inspection → Prop
  | .inherit z => d.patient m ∧ ∀ e ∈ m.displays, e.serverVT = tvt → Holds m e → e.addr = z
  | .taken => Untaken m tvt
  | .free => Untaken m tvt

instance (m : Manager) (d : Display) (tvt : Nat) : ∀ found : Inspection, Decidable (found.Fits m d tvt)
  | .inherit _ => inferInstanceAs (Decidable (_ ∧ ∀ e ∈ m.displays, _))
  | .taken => inferInstanceAs (Decidable (Untaken m tvt))
  | .free => inferInstanceAs (Decidable (Untaken m tvt))

def Chosen.Fits (m : Manager) (d : Display) : Option (Nat × Bool) → Prop
  | none => True
  | some c => (inspect c.1 m.displays).Fits m d c.1

instance (m : Manager) (d : Display) : ∀ chosen : Option (Nat × Bool), Decidable (Chosen.Fits m d chosen)
  | none => inferInstanceAs (Decidable True)
  | some c => inferInstanceAs (Decidable ((inspect c.1 m.displays).Fits m d c.1))

/-- Whether a display needs a terminal. -/
def Display.needsVT (d : Display) : Prop :=
  d.displayType.dLocal ∧ d.status = .notRunning ∧ d.serverVT = 0 ∧ 0 ≤ d.config.reqSrvVT

instance (d : Display) : Decidable d.needsVT := inferInstanceAs (Decidable (_ ∧ _ ∧ _ ∧ _))

/-- The terminal that the display gets now is not one that others hold on to. -/
def Fits (w : World) (m : Manager) (a : Nat) : Prop :=
  ∀ d ∈ m.displays, d.addr = a → d.needsVT →
    if d.config.reqSrvVT ≠ 0 ∧ d.config.reqSrvVT < 16 then Untaken m d.config.reqSrvVT
    else Chosen.Fits m d ((candidates w.serverVTs).find? (suits w m))

instance (w : World) (m : Manager) (a : Nat) : Decidable (Fits w m a) :=
  inferInstanceAs (Decidable (∀ d ∈ m.displays, _))

theorem mem_set_cases {a : Nat} {f : Display → Display} {e' : Display} (inside : e' ∈ (m.set a f).displays) :
    (∃ e ∈ m.displays, e.addr = a ∧ e' = f e) ∨ e' ∈ m.displays ∧ e'.addr ≠ a := by
  obtain ⟨e,among,rfl⟩ := mem_map.mp inside
  by_cases here : e.addr = a
  · rw [if_pos here]
    exact .inl ⟨e,among,here,rfl⟩
  · rw [if_neg here]
    exact .inr ⟨among,here⟩

theorem mem_set_other {a : Nat} {f : Display → Display} {e : Display} (among : e ∈ m.displays) (other : e.addr ≠ a) :
    e ∈ (m.set a f).displays :=
  mem_map.mpr ⟨e,among,if_neg other⟩

theorem Booked.give (booked : Booked m) {d : Display} (inside : d ∈ m.displays) (none : d.serverVT = 0) {vt : Int}
    (untaken : Untaken m vt) : Booked (m.set d.addr fun d => { d with serverVT := vt }) := by
  have old {e' : Display} (among : e' ∈ (m.set d.addr fun d => { d with serverVT := vt }).displays) :
      ∃ e ∈ m.displays, e.addr = e'.addr ∧ e.follower = e'.follower := by
    rcases mem_set_cases among with ⟨e,before,-,rfl⟩ | ⟨before,-⟩
    · exact ⟨e,before,rfl,rfl⟩
    · exact ⟨e',before,rfl,rfl⟩
  refine ⟨booked.unique.set fun _ => rfl,?_,?_,?_⟩
  · rintro f ⟨e',among,named⟩
    obtain ⟨e,before,-,same⟩ := old among
    obtain ⟨g,there,rfl,waiting⟩ := booked.awaited f ⟨e,before,same.trans named⟩
    have other : g.addr ≠ d.addr := by
      intro here
      have vt := waiting.serverVT
      rw [booked.unique.same inside there here] at vt
      omega
    exact ⟨g,mem_set_other there other,rfl,waiting.of_starting rfl⟩
  · intro e' among g' among' f named named'
    obtain ⟨e,before,addr,same⟩ := old among
    obtain ⟨g,before',addr',same'⟩ := old among'
    rw [← addr,← addr']
    exact booked.alone e before g before' f (same.trans named) (same'.trans named')
  · intro e' among g' among' holds holds' positive same
    rcases mem_set_cases among with ⟨e,before,here,rfl⟩ | ⟨before,other⟩
    · rcases mem_set_cases among' with ⟨g,before',here',rfl⟩ | ⟨before',other'⟩
      · exact here'.trans here.symm
      · exact absurd holds' (untaken g' before' same)
    · rcases mem_set_cases among' with ⟨g,before',here',rfl⟩ | ⟨before',other'⟩
      · exact absurd holds (untaken e' before same.symm)
      · exact booked.single e' before g' before' holds holds' positive same

theorem Booked.wait (booked : Booked m) {d z : Display} (inside : d ∈ m.displays) (none : d.serverVT = 0)
    (rests : d.status = .notRunning) (patient : d.patient m) (dying : z ∈ m.displays) (zombie : z.status = .zombie)
    (sole : ∀ e ∈ m.displays, e.serverVT = z.serverVT → Holds m e → e.addr = z.addr) :
    Booked ((m.set d.addr fun d => { d with serverVT := -1 }).set z.addr
      fun cd => { cd with follower := some d.addr }) := by
  have apart : z.addr ≠ d.addr := by
    intro same
    rw [booked.unique.same inside dying same,rests] at zombie
    cases zombie
  have cases_of {e' : Display} (among : e' ∈ ((m.set d.addr fun d => { d with serverVT := -1 }).set z.addr
      fun cd => { cd with follower := some d.addr }).displays) :
      e' = { z with follower := some d.addr } ∨ e' = { d with serverVT := -1 } ∨
        e' ∈ m.displays ∧ e'.addr ≠ d.addr ∧ e'.addr ≠ z.addr := by
    rcases mem_set_cases among with ⟨e,before,here,rfl⟩ | ⟨before,other⟩
    · rcases mem_set_cases before with ⟨g,_,here',rfl⟩ | ⟨start,_⟩
      · exact absurd (here.symm.trans here') apart
      · rw [booked.unique.same dying start here]
        exact .inl rfl
    · rcases mem_set_cases before with ⟨g,start,here',rfl⟩ | ⟨start,other'⟩
      · rw [booked.unique.same inside start here']
        exact .inr (.inl rfl)
      · exact .inr (.inr ⟨start,other',other⟩)
  have unnamed (e : Display) (among : e ∈ m.displays) : e.follower ≠ some d.addr := by
    intro named
    obtain ⟨g,there,here,waiting⟩ := booked.awaited d.addr ⟨e,among,named⟩
    have vt := waiting.serverVT
    rw [booked.unique.same inside there here] at vt
    omega
  refine ⟨?_,?_,?_,?_⟩
  · refine Unique.set ?_ fun _ => rfl
    exact booked.unique.set fun _ => rfl
  · rintro f ⟨e',among,named⟩
    have before (followed : Followed m f) : ∃ g ∈ ((m.set d.addr fun d => { d with serverVT := -1 }).set z.addr
        fun cd => { cd with follower := some d.addr }).displays, g.addr = f ∧
          Waits ((m.set d.addr fun d => { d with serverVT := -1 }).set z.addr
            fun cd => { cd with follower := some d.addr }) g := by
      obtain ⟨e,start,named⟩ := followed
      obtain ⟨g,there,here,waiting⟩ := booked.awaited f ⟨e,start,named⟩
      have other : g.addr ≠ d.addr := fun same => unnamed e start (by rw [named,← here,same])
      have other' : g.addr ≠ z.addr := by
        intro same
        have rests := waiting.resting
        rw [booked.unique.same dying there same] at rests
        simp [Display.resting,zombie] at rests
      exact ⟨g,mem_set_other (mem_set_other there other) other',here,waiting.of_starting rfl⟩
    rcases cases_of among with rfl | rfl | ⟨start,-⟩
    · cases named
      have there : { d with serverVT := -1 } ∈ (m.set d.addr fun d => { d with serverVT := -1 }).displays :=
        mem_map.mpr ⟨d,inside,if_pos rfl⟩
      exact ⟨_,mem_set_other there (Ne.symm apart),rfl,rfl,.inl rests,patient.1,patient.2.1,patient.2.2⟩
    · exact before ⟨d,inside,named⟩
    · exact before ⟨e',start,named⟩
  · intro e' among g' among' f named named'
    rcases cases_of among with rfl | rfl | ⟨start,-⟩
    · cases named
      rcases cases_of among' with rfl | rfl | ⟨start',-⟩
      · rfl
      · exact absurd named' (unnamed d inside)
      · exact absurd named' (unnamed g' start')
    · rcases cases_of among' with rfl | rfl | ⟨start',-⟩
      · cases named'
        exact absurd named (unnamed d inside)
      · rfl
      · exact booked.alone d inside g' start' f named named'
    · rcases cases_of among' with rfl | rfl | ⟨start',-⟩
      · cases named'
        exact absurd named (unnamed e' start)
      · exact booked.alone e' start d inside f named named'
      · exact booked.alone e' start g' start' f named named'
  · intro e' among g' among' holds holds' positive same
    rcases cases_of among with rfl | rfl | ⟨start,-⟩
    · rcases cases_of among' with rfl | rfl | ⟨start',-⟩
      · rfl
      · dsimp only at positive same
        omega
      · exact sole g' start' same holds'
    · dsimp only at positive
      omega
    · rcases cases_of among' with rfl | rfl | ⟨start',-⟩
      · exact (sole e' start same.symm holds).symm
      · dsimp only at positive same
        omega
      · exact booked.single e' start g' start' holds holds' positive same

theorem Booked.allocateVT (booked : Booked m) {w : World} {a : Nat} (fits : Fits w m a) :
    Booked (m.allocateVT w a) := by
  unfold Manager.allocateVT Manager.on Manager.find
  cases found : m.displays.find? (·.addr = a) with
  | none => exact booked
  | some d =>
    have inside := mem_of_find?_eq_some found
    have here : d.addr = a := by simpa using find?_some found
    have free := fits d inside here
    subst here
    simp only [Option.map_some,Option.getD_some]
    split
    · rename_i needs
      have free := free needs
      have rests : d.status = .notRunning := needs.2.1
      have vacant : d.serverVT = 0 := needs.2.2.1
      split
      · rename_i fixed
        rw [if_pos fixed] at free
        rw [booked.unique.set_congr inside (g := fun e => { e with serverVT := d.config.reqSrvVT }) rfl]
        exact booked.give inside vacant free
      · rename_i dynamic
        rw [if_neg dynamic] at free
        rw [pickVT_eq]
        cases chosen : (candidates w.serverVTs).find? (suits w m) with
        | none => exact booked
        | some c =>
          obtain ⟨tvt,volun⟩ := c
          rw [chosen,Chosen.Fits] at free
          simp only at free ⊢
          cases what : inspect tvt m.displays with
          | taken =>
            rw [what] at free
            exact booked.give inside vacant free
          | free =>
            rw [what] at free
            exact booked.give inside vacant free
          | inherit z =>
            rw [what] at free
            obtain ⟨cd,dying,rfl,vt,zombie⟩ := inspect_inherit what
            refine booked.wait inside vacant rests free.1 dying zombie ?_
            exact fun e among same => free.2 e among (same.trans vt)
    · exact booked

theorem Booked.handOver (booked : Booked m) {d : Display} (inside : d ∈ m.displays) (zombie : d.status = .zombie) :
    Booked ((m.set d.addr fun d => { d with serverPid := none }).handOver d.addr) := by
  obtain ⟨r,bereft⟩ : ∃ r, r = { d with serverPid := none } := ⟨_,rfl⟩
  have addr : r.addr = d.addr := by rw [bereft]
  have same : (m.set d.addr fun d => { d with serverPid := none }) = m.set d.addr fun _ => r := by
    apply booked.unique.set_congr inside
    rw [bereft]
  by_cases given : r.serverVT ≠ 0 ∧ r.zstatus ≠ .DS_REMOTE
  · rw [same,handOver_set inside addr]
    have vt : r.serverVT = d.serverVT := by rw [bereft]
    have follower : r.follower = d.follower := by rw [bereft]
    have cases_of {e' : Display} (among : e' ∈ (m.set d.addr fun _ => r).displays.map (passed r)) :
        e'.addr = d.addr ∧ e'.serverVT = 0 ∧ e'.follower = none ∨
          (∃ e ∈ m.displays, d.follower = some e.addr ∧ e' = { e with serverVT := d.serverVT } ∧ e.addr ≠ d.addr) ∨
          e' ∈ m.displays ∧ e'.addr ≠ d.addr := by
      obtain ⟨e,there,rfl⟩ := mem_map.mp among
      unfold passed
      rw [if_pos given,vt,follower]
      rcases mem_set_cases there with ⟨_,_,_,rfl⟩ | ⟨start,other⟩
      · rw [if_pos rfl]
        refine .inl ⟨?_,rfl,rfl⟩
        dsimp only
        split_ifs <;> exact addr
      · rw [if_neg (addr ▸ other)]
        by_cases named : d.follower = some e.addr
        · rw [if_pos named]
          exact .inr (.inl ⟨e,start,named,rfl,other⟩)
        · rw [if_neg named]
          exact .inr (.inr ⟨start,other⟩)
    have kept {e : Display} (start : e ∈ m.displays) (other : e.addr ≠ d.addr) (unnamed : d.follower ≠ some e.addr) :
        e ∈ (m.set d.addr fun _ => r).displays.map (passed r) := by
      refine mem_map.mpr ⟨e,mem_set_other start other,?_⟩
      unfold passed
      rw [if_pos given,vt,follower,if_neg (addr ▸ other),if_neg unnamed]
    have old {e' : Display} (among : e' ∈ (m.set d.addr fun _ => r).displays.map (passed r)) {f : Nat}
        (named : e'.follower = some f) :
        ∃ e ∈ m.displays, e.addr = e'.addr ∧ e.addr ≠ d.addr ∧ e.follower = some f := by
      rcases cases_of among with ⟨-,-,none⟩ | ⟨e,start,-,rfl,other⟩ | ⟨start,other⟩
      · cases none.symm.trans named
      · exact ⟨e,start,rfl,other,named⟩
      · exact ⟨e',start,rfl,other,named⟩
    refine ⟨?_,?_,?_,?_⟩
    · unfold Unique
      simp only [map_map,Function.comp_def,passed_addr]
      rw [set_addrs m d.addr fun e here => addr.trans here.symm]
      exact booked.unique
    · rintro f ⟨e',among,named⟩
      obtain ⟨e,start,-,other,named⟩ := old among named
      obtain ⟨g,there,rfl,waiting⟩ := booked.awaited f ⟨e,start,named⟩
      have alive : g.addr ≠ d.addr := by
        intro same
        have rests := waiting.resting
        rw [booked.unique.same inside there same] at rests
        simp [Display.resting,zombie] at rests
      exact ⟨g,kept there alive fun named' => other (booked.alone d inside e start g.addr named' named),rfl,
        waiting.of_starting rfl⟩
    · intro e' among g' among' f named named'
      obtain ⟨e,start,sameAddr,-,named⟩ := old among named
      obtain ⟨g,start',sameAddr',-,named'⟩ := old among' named'
      rw [← sameAddr,← sameAddr']
      exact booked.alone e start g start' f named named'
    · intro e' among g' among' holds holds' positive level
      rcases cases_of among with ⟨-,none,-⟩ | ⟨e,start,named,rfl,-⟩ | ⟨start,other⟩
      · omega
      · have promised : Holds m d := .inr (.inr (.inr (.inl (by simp [named]))))
        rcases cases_of among' with ⟨-,none,-⟩ | ⟨g,start',named',rfl,-⟩ | ⟨start',other'⟩
        · omega
        · exact (Option.some.inj (named.symm.trans named')).symm
        · exact absurd (booked.single d inside g' start' promised holds' positive level) other'
      · rcases cases_of among' with ⟨-,none,-⟩ | ⟨g,start',named',rfl,-⟩ | ⟨start',other'⟩
        · omega
        · have promised : Holds m d := .inr (.inr (.inr (.inl (by simp [named']))))
          exact absurd (booked.single e' start d inside holds promised positive level).symm other
        · exact booked.single e' start g' start' holds holds' positive level
  · have nothing : passed r = id := funext fun e => if_neg given
    rw [same,handOver_set inside addr,nothing,map_id]
    rw [← same]
    refine booked.framed (.change (fun _ => rfl) (fun e among there => ⟨rfl,rfl,fun positive _ => ?_⟩) ?_)
    · rw [booked.unique.same inside among there] at positive ⊢
      rw [bereft] at given
      simp only [not_and,not_not] at given
      exact .inr (.inl (given (by omega)))
    · exact fun e _ _ _ waiting => ⟨waiting.serverVT,waiting.resting,waiting.pid,waiting.serverStatus,waiting.starting⟩

theorem Booked.zombieExit (booked : Booked m) {d : Display} (inside : d ∈ m.displays) (zombie : d.status = .zombie)
    (w : World) : Booked (m.serverExit w d.addr) := by
  obtain ⟨r,bereft⟩ : ∃ r, r = { d with serverPid := none } := ⟨_,rfl⟩
  have addr : r.addr = d.addr := by rw [bereft]
  have same : (m.set d.addr fun d => { d with serverPid := none }) = m.set d.addr fun _ => r := by
    apply booked.unique.set_congr inside
    rw [bereft]
  have handed := booked.handOver inside zombie
  have result : m.serverExit w d.addr =
      ((m.set d.addr fun d => { d with serverPid := none }).handOver d.addr).rStopDisplay w d.addr d.zstatus false := by
    unfold serverExit
    rw [booked.unique.on inside]
    simp only [zombie]
  have dying (e : Display) (among : e ∈ ((m.set d.addr fun d => { d with serverPid := none }).handOver d.addr).displays)
      (here : e.addr = d.addr) : e.status = .zombie ∧ e.zstatus = d.zstatus := by
    rw [same,handOver_set inside addr] at among
    obtain ⟨e',there,rfl⟩ := mem_map.mp among
    rw [passed_addr] at here
    rcases mem_set_cases there with ⟨_,_,_,rfl⟩ | ⟨_,other⟩
    · obtain ⟨-,status,zstatus⟩ := passed_same e' e'
      rw [status,zstatus,bereft]
      exact ⟨zombie,rfl⟩
    · exact absurd here other
  rw [result]
  refine handed.framed (rStopDisplay_framed handed.unique (fun followed => ?_) fun ends e among here => .inr ?_)
  · obtain ⟨g,there,here,waiting⟩ := handed.awaited d.addr followed
    have rests := waiting.resting
    simp [Display.resting,(dying g there here).1] at rests
  · exact (dying e among here).2.trans ends

theorem Booked.reapChild (booked : Booked m) (w : World) (pid : Nat) (code : ExitCode) :
    Booked (m.reapChild w pid code) := by
  unfold Manager.reapChild
  cases found : m.displays.find? (·.pid = some pid) with
  | some d =>
    have inside := mem_of_find?_eq_some found
    have session : d.pid = some pid := by simpa using find?_some found
    have spare : ¬Followed m d.addr := by
      intro followed
      have none := (booked.awaited.known booked.unique inside followed).pid
      cases none.symm.trans session
    exact booked.framed (sessionExit_framed booked.unique spare w code)
  | none =>
    simp only
    cases found : m.displays.find? (·.serverPid = some pid) with
    | none => exact booked
    | some d =>
      have inside := mem_of_find?_eq_some found
      by_cases zombie : d.status = .zombie
      · exact booked.zombieExit inside zombie w
      · exact booked.framed (serverExit_framed booked.unique booked.awaited inside zombie w)

theorem Booked.pass {f : Manager → Nat → Manager} {P : Display → Prop} (elsewhere : ∀ m a, Elsewhere a m (f m a))
    (framed : ∀ m a, Booked m → (Followed m a → ∀ d ∈ m.displays, d.addr = a → P d) → Framed (Followed m) m (f m a))
    (booked : Booked m) (meets : ∀ d ∈ m.displays, Followed m d.addr → P d) :
    Booked (m.forEachDisplay f) ∧ (m.forEachDisplay f).stopping = m.stopping := by
  have fold : ∀ (addrs : List Nat) (m : Manager), addrs.Nodup → Booked m →
      (∀ d ∈ m.displays, d.addr ∈ addrs → Followed m d.addr → P d) →
        Booked (addrs.foldl f m) ∧ (addrs.foldl f m).stopping = m.stopping := by
    intro addrs
    induction addrs with
    | nil => exact fun m _ booked _ => ⟨booked,rfl⟩
    | cons a addrs ih =>
      intro m distinct booked meets
      obtain ⟨new,distinct⟩ := nodup_cons.mp distinct
      have done := framed m a booked fun followed d inside here => meets d inside (by simp [here]) (here ▸ followed)
      obtain ⟨booked',stopping⟩ := ih (f m a) distinct (booked.framed done) fun d inside later followed => by
        have other : d.addr ≠ a := fun here => new (here ▸ later)
        exact meets d (elsewhere m a d inside other) (mem_cons_of_mem a later) (done.followed followed)
      exact ⟨booked',stopping.trans done.stopping⟩
  exact fold _ m booked.unique booked fun d inside _ => meets d inside

/-- Each display gets a terminal that fits, when its turn comes. -/
def AllFit (w : World) : Manager → List Nat → Prop
  | _, [] => True
  | m, a :: addrs => Fits w m a ∧ AllFit w (m.allocateVT w a) addrs

instance (w : World) : ∀ (m : Manager) (addrs : List Nat), Decidable (AllFit w m addrs)
  | _, [] => inferInstanceAs (Decidable True)
  | m, a :: addrs =>
    have := instDecidableAllFit w (m.allocateVT w a) addrs
    inferInstanceAs (Decidable (_ ∧ _))

theorem allocateVT_stopping (w : World) (m : Manager) (a : Nat) : (m.allocateVT w a).stopping = m.stopping := by
  unfold Manager.allocateVT Manager.on
  cases m.find a with
  | none => rfl
  | some d =>
    simp only [Option.map_some,Option.getD_some]
    split_ifs
    · rfl
    · rw [pickVT_eq]
      split
      · rfl
      · split <;> rfl
    · rfl

theorem Booked.allocate (w : World) (addrs : List Nat) (booked : Booked m) (fit : AllFit w m addrs) :
    Booked (addrs.foldl (Manager.allocateVT w) m) ∧ (addrs.foldl (Manager.allocateVT w) m).stopping = m.stopping := by
  induction addrs generalizing m with
  | nil => exact ⟨booked,rfl⟩
  | cons a addrs ih =>
    obtain ⟨booked',stopping⟩ := ih (booked.allocateVT fit.1) fit.2
    exact ⟨booked',stopping.trans (allocateVT_stopping w m a)⟩

theorem Booked.kick (w : World) (addrs : List Nat) (booked : Booked m) (going : m.stopping = false) :
    Booked (addrs.foldl (kickDisplay w) m) := by
  induction addrs generalizing m with
  | nil => exact booked
  | cons a addrs ih =>
    have kicked : Framed (Followed m) m (m.kickDisplay w a) := kickDisplay_framed booked.unique booked.awaited going w
    exact ih (booked.framed kicked) (kicked.stopping.trans going)

/-- No display that waits for a terminal is stopped, unless it goes to text mode without a server, and
    terminals are given to displays that they fit. -/
def Careful (w : World) (m : Manager) : Event → Prop
  | .startDisplays =>
    (∀ d ∈ m.displays, Followed m d.addr → ¬(d.displayType.origin = .dFromFile ∧ ¬d.stillThere) ∧
      (d.status = .notRunning → w.loadDisplayResources d ≠ none)) ∧
    AllFit w (m.forEachDisplay (checkDisplayStatus w))
      ((m.forEachDisplay (checkDisplayStatus w)).displays.map (·.addr)).reverse
  | .stoppen force => ∀ d ∈ m.displays, Followed m d.addr → force = false ∧ d.userSess ≠ none
  | .stop a => ¬Followed m a
  | .console => w.consoleTTYs → ∀ d ∈ m.displays, Followed m d.addr → d.displayType.dLocal → d.status = .notRunning →
      d.serverPid = none
  | _ => True

theorem Booked.serverTimeout (booked : Booked m) {a : Nat} (starting : m.startingServer = some a) (w : World) :
    Booked (m.startServerTimeout w a) := by
  by_cases followed : Followed m a
  · refine booked.framed (.on fun d inside here => ?_)
    have waiting := booked.awaited.known booked.unique inside (here ▸ followed)
    rw [waiting.starting (here ▸ starting)]
    exact .refl
  · exact booked.framed (startServerTimeout_framed followed booked.unique starting w)

theorem Booked.startDisplays (booked : Booked m) (going : m.stopping = false) {w : World}
    (careful : Careful w m .startDisplays) : Booked (m.startDisplays w) := by
  obtain ⟨stay,fit⟩ := careful
  obtain ⟨checked,same⟩ := booked.pass (fun _ a => checkDisplayStatus_elsewhere w a)
    (fun _ _ booked spare => checkDisplayStatus_framed booked.unique w spare) stay
  obtain ⟨allocated,same'⟩ := checked.allocate w _ fit
  exact allocated.kick w _ (same'.trans (same.trans going))

theorem Booked.plan (booked : Booked m) (sdRec : SdRec) (stopping : Bool) :
    Booked { m with sdRec := sdRec, stopping := stopping } := by
  refine ⟨booked.unique,fun a followed => ?_,booked.alone,booked.single⟩
  obtain ⟨d,inside,here,waiting⟩ := booked.awaited a followed
  exact ⟨d,inside,here,waiting.of_starting rfl⟩

theorem Booked.stoppen (booked : Booked m) {w : World} {force : Bool} (careful : Careful w m (.stoppen force)) :
    Booked (m.stoppen w force) := by
  refine Booked.plan (m := m.forEachDisplay (if force then stopDisplay w else stopInactiveDisplay w)) ?_
    (m.forEachDisplay (if force then stopDisplay w else stopInactiveDisplay w)).sdRec true
  cases force with
  | true =>
    refine (booked.pass (P := fun _ => False) (fun _ a => stopDisplay_elsewhere w a)
      (fun m a booked spare => stopDisplay_framed booked.unique fun followed => ?_) ?_).1
    · obtain ⟨d,inside,here,-⟩ := booked.awaited a followed
      exact spare followed d inside here
    · exact fun d inside followed => nomatch (careful d inside followed).1
  | false =>
    refine (booked.pass (P := fun d => d.userSess ≠ none) (fun _ a => stopInactiveDisplay_elsewhere w a)
      (fun m a booked spare => ?_) ?_).1
    · exact stopInactiveDisplay_framed booked.unique fun followed d inside here _ => spare followed d inside here
    · exact fun d inside followed => (careful d inside followed).2

theorem Booked.console (booked : Booked m) {w : World} (careful : Careful w m .console) (ttys : w.consoleTTYs) :
    Booked ((m.forEachDisplay (stopToTTY w)).checkTTYMode w) := by
  have stopped := (booked.pass (P := fun d => d.displayType.dLocal → d.status = .notRunning → d.serverPid = none)
    (fun _ a => stopToTTY_elsewhere w a)
    (fun _ _ booked spare => stopToTTY_framed booked.unique spare fun followed d inside here =>
      booked.awaited.known booked.unique inside (here ▸ followed)) (careful ttys)).1
  exact stopped.framed (checkTTYMode_framed w)

theorem Booked.step (booked : Booked m) {w : World} {e : Event} (careful : Careful w m e)
    (stepped : DisplayCycle.step w m e = some m') : Booked m' := by
  have unique := booked.unique
  cases e with
  | startDisplays =>
    simp only [DisplayCycle.step] at stepped
    split at stepped
    · cases stepped
    · rename_i going
      cases stepped
      exact booked.startDisplays (by simpa using going) careful
  | serverTimeout =>
    simp only [DisplayCycle.step] at stepped
    split at stepped
    · cases stepped
    · obtain ⟨a,starting,rfl⟩ := Option.map_eq_some_iff.mp stepped
      have elapsed : Booked (m.withServer m.startingServer none) := booked.framed .withServer_same
      exact elapsed.serverTimeout starting w
  | serverReady =>
    cases stepped
    cases starting : m.startingServer with
    | none => exact booked
    | some a =>
      refine booked.framed (.on fun d inside here => .ite (fun up => ?_) fun _ => .refl)
      refine startServerSuccess_framed (fun followed => ?_) starting w
      have quiet := (booked.awaited.known unique inside (here ▸ followed)).starting (here ▸ starting)
      rw [up] at quiet
      cases quiet
  | utmpTimeout =>
    cases stepped
    exact booked.framed (checkUtmp_framed w)
  | stoppen force =>
    cases stepped
    exact booked.stoppen careful
  | rescan hangup staticServers reserveServers =>
    cases stepped
    cases hangup with
    | true => exact booked.framed (markDisplays_framed.trans (scanServers_framed staticServers reserveServers))
    | false => exact booked.framed (scanServers_framed staticServers reserveServers)
  | childExit pid code =>
    cases stepped
    exact booked.reapChild w pid code
  | stop a =>
    cases stepped
    exact booked.framed (stopDisplay_framed unique careful)
  | manage name displayType =>
    cases stepped
    refine booked.framed ((newDisplay_framed name).trans (.set (fun _ => rfl) (fun d _ _ => ⟨rfl,rfl,id⟩) ?_))
    exact fun d _ _ _ waiting => ⟨waiting.serverVT,waiting.resting,waiting.pid,waiting.serverStatus,waiting.starting⟩
  | suicide a =>
    cases stepped
    exact booked.framed (suicide_framed unique booked.awaited a)
  | login a nuke =>
    cases stepped
    exact booked.framed (login_framed unique booked.awaited a nuke)
  | reserve =>
    cases stepped
    exact booked.framed (startReserveDisplay_framed unique booked.awaited)
  | resume =>
    cases stepped
    exact booked.framed wakeDisplays_framed
  | console =>
    simp only [DisplayCycle.step] at stepped
    split at stepped
    · rename_i ttys
      cases stepped
      exact booked.console careful ttys
    · cases stepped
      exact booked
  | connOk =>
    cases stepped
    exact booked.framed .withServer_none
  | user a userSess =>
    cases stepped
    refine booked.framed (.set (fun _ => rfl) (fun d _ _ => ⟨rfl,rfl,id⟩) ?_)
    exact fun d _ _ _ waiting => ⟨waiting.serverVT,waiting.resting,waiting.pid,waiting.serverStatus,waiting.starting⟩
  | shutdown sdRec =>
    cases stepped
    exact booked.plan sdRec m.stopping
  | cancelShutdown =>
    cases stepped
    exact booked.plan .none false

theorem Reached.booked (reached : Reached Careful m) : Booked m := by
  induction reached with
  | initial =>
    have empty (d : Display) : d ∉ DisplayCycle.initial.displays := not_mem_nil
    refine ⟨nodup_nil,?_,?_,?_⟩
    · rintro a ⟨d,inside,-⟩
      exact absurd inside (empty d)
    · exact fun d inside => absurd inside (empty d)
    · exact fun d inside => absurd inside (empty d)
  | step _ careful stepped ih => exact ih.step careful stepped

/-- No two displays that are not zombies hold the same terminal, and whom a display will pass its terminal
    on to is there and waits. -/
def TerminalsKept (m : Manager) : Prop :=
  (∀ d ∈ m.displays, ∀ e ∈ m.displays, d.status ≠ .zombie → e.status ≠ .zombie → 0 < d.serverVT →
    e.serverVT = d.serverVT → e = d) ∧
  ∀ d ∈ m.displays, ∀ f, d.follower = some f → ∃ e ∈ m.displays, e.addr = f ∧ e.serverVT = -1

theorem Follows.next {condition : World → Manager → Event → Prop} {w : World} {e : Event} {es : List (World × Event)}
    (meets : condition w m e) (stepped : DisplayCycle.step w m e = some m') (later : Follows condition m' es) :
    Follows condition m ((w,e) :: es) := by
  refine ⟨meets,fun m₁ stepped' => ?_⟩
  rw [stepped] at stepped'
  cases stepped'
  exact later

/-- A display is stopped while its server runs, and another one comes to wait for its terminal. -/
def inheriting : List (World × Event) :=
  [(world 1,.rescan false [":0"] []),(world 10,.startDisplays),(world 13,.stop 1),
    (world 14,.rescan false [":0",":1"] []),(world 15,.startDisplays)]

/-- A third display does not see that the terminal of the zombie is promised, and gets it at once. -/
example : (run initial (inheriting ++ [(world 16,.rescan false [":0",":1",":2"] []),(world 17,.startDisplays),
    (world 20,.childExit 10002 .other)])).map (fun m => m.displays.map fun d => (d.addr,d.status,d.serverVT)) =
      some [(3,.running,7),(2,.notRunning,7)] := by
  decide +kernel

end KdeWorkspace.DisplayCycle
