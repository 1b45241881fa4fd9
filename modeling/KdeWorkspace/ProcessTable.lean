import KdeWorkspace.Lists
import Mathlib.Data.Finset.Basic

/-!
The table of the processes.

A process points to its parent, and the chain of parents ends at a process that is not real. `Table` says what the
table is: a tree whose counts are right. Processes without children can be added, moved and deleted.
-/
namespace KdeWorkspace.ProcessTable
open List Option Function

inductive ProcessStatus
  | Running
  | Sleeping
  | DiskSleep
  | Zombie
  | Stopped
  | Paging
  | Ended
  | OtherStatus
deriving DecidableEq, Repr

/-- A process; others are given by their pids, for there is one process for each. -/
structure Process where
  parent_pid : Int
  parent : Int
  children : List Int
  numChildren : Int
  index : Nat
  status : ProcessStatus
deriving DecidableEq, Repr

@[ext]
structure Processes where
  mProcesses : Int → Option Process
  mListProcesses : List Int
  mToBeProcessed : Finset Int
  mProcessedLastTime : Finset Int
  mEndedProcesses : Finset Int

/-- What the system reports in one round. -/
structure Kernel where
  getAllPids : Finset Int
  real : ∀ pid ∈ getAllPids, 0 ≤ pid
  getParentPid : Int → Int
  status : Int → ProcessStatus

/-- The pid of the process that is not real. -/
abbrev mFakeProcess : Int := -1

namespace Processes

/-- Nothing has been reported yet. -/
def empty : Processes where
  mProcesses pid := if pid = mFakeProcess then some ⟨-1,mFakeProcess,[],0,0,.OtherStatus⟩ else none
  mListProcesses := []
  mToBeProcessed := ∅
  mProcessedLastTime := ∅
  mEndedProcesses := ∅

/-- A process is changed. -/
def modify (s : Processes) (pid : Int) (f : Process → Process) : Processes :=
  { s with mProcesses := Function.update s.mProcesses pid ((s.mProcesses pid).map f) }

/-- The loops that go from a parent up to the process that is not real and change the counts on the way. -/
def count (delta : Int) : Nat → Int → Processes → Option Processes
  | 0,_,_ => none
  | fuel+1,p,s => do
    let process ← s.mProcesses p
    let s := s.modify p fun process => { process with numChildren := process.numChildren+delta }
    if p = mFakeProcess then some s else count delta fuel process.parent s

/-- The parent that a process gets: the one that is reported, if it is known. -/
def parentFor (s : Processes) (ppid : Int) : Int := if (s.mProcesses ppid).isSome then ppid else mFakeProcess

/-- What `updateProcessInfo` asks for. -/
def updateProcessInfo (s : Processes) (k : Kernel) (pid : Int) : Processes :=
  s.modify pid fun process => { process with status := k.status pid }

def updateProcess (s : Processes) (k : Kernel) (fuel : Nat) (pid ppid : Int) : Option Processes := do
  let ps ← s.mProcesses pid
  let parent := s.parentFor ppid
  let s ← if ps.parent ≠ parent then do
      let s ← count (-1) fuel ps.parent s
      let s := s.modify ps.parent fun old => { old with children := old.children.filter (· ≠ pid) }
      let s := s.modify pid fun ps => { ps with parent }
      let s := s.modify parent fun parent => { parent with children := parent.children++[pid] }
      count 1 fuel parent s
    else some s
  let s := s.modify pid fun ps => { ps with parent_pid := ppid }
  return s.updateProcessInfo k pid

def addProcess (s : Processes) (k : Kernel) (fuel : Nat) (pid ppid : Int) : Option Processes := do
  let parent := s.parentFor ppid
  let ps : Process := ⟨ppid,parent,[],0,s.mListProcesses.length,.OtherStatus⟩
  let s := { s with
    mProcesses := Function.update s.mProcesses pid (some ps)
    mListProcesses := s.mListProcesses++[pid] }
  let s := s.modify parent fun parent => { parent with children := parent.children++[pid] }
  let s ← count 1 fuel parent s
  return s.updateProcessInfo k pid

/-- The end of `deleteProcess`, when the children are gone. -/
def removeProcess (s : Processes) (fuel : Nat) (pid : Int) : Option Processes := do
  let process ← s.mProcesses pid
  let s := { s with
    mProcesses := Function.update s.mProcesses pid none
    mListProcesses := s.mListProcesses.filter (· ≠ pid) }
  let s := s.modify process.parent fun parent => { parent with children := parent.children.filter (· ≠ pid) }
  let s ← count (-1) fuel process.parent s
  return { s with mProcesses := fun p => (s.mProcesses p).map fun it =>
    if p ∈ s.mListProcesses ∧ it.index > process.index then { it with index := it.index-1 } else it }

def deleteProcess : Nat → Int → Processes → Option Processes
  | 0,_,_ => none
  | fuel+1,pid,s =>
    match s.mProcesses pid with
    | none => some s
    | some process => do
      let s ← process.children.foldlM
        (fun s it => deleteProcess fuel it { s with mProcessedLastTime := s.mProcessedLastTime.erase it }) s
      s.removeProcess fuel pid

/-- The end of `processesUpdated`: what was there last time and is not now has ended. -/
def markProcessesAsEnded (s : Processes) (beingProcessed : Finset Int) : Processes :=
  { s with
    mProcesses := fun p => (s.mProcesses p).map fun process =>
      if p ∈ s.mProcessedLastTime then { process with status := .Ended } else process
    mEndedProcesses := s.mProcessedLastTime
    mProcessedLastTime := beingProcessed }

theorem modify_apply (s : Processes) (q p : Int) (f : Process → Process) :
    (s.modify q f).mProcesses p = if p = q then (s.mProcesses p).map f else s.mProcesses p := by
  simp only [modify,update_apply]
  split
  · rename_i same
    rw [same]
  · rfl

/-- The counts of some processes are changed. -/
def bump (s : Processes) (delta : Int) (ps : List Int) : Processes :=
  { s with mProcesses := fun p => (s.mProcesses p).map fun process =>
    if p ∈ ps then { process with numChildren := process.numChildren+delta } else process }

theorem modify_eq_bump (s : Processes) (delta p : Int) :
    (s.modify p fun process => { process with numChildren := process.numChildren+delta }) = s.bump delta [p] := by
  refine congrArg (fun processes => { s with mProcesses := processes }) (funext fun q => ?_)
  refine (s.modify_apply p q _).trans ?_
  by_cases same : q = p
  · simp [same]
  · simp [same]

theorem bump_bump (s : Processes) (delta : Int) {p : Int} {ps : List Int} (absent : p ∉ ps) :
    (s.bump delta [p]).bump delta ps = s.bump delta (p :: ps) := by
  refine congrArg (fun processes => { s with mProcesses := processes }) (funext fun q => ?_)
  simp only [bump,Option.map_map]
  refine congrArg (Option.map · _) (funext fun process => ?_)
  by_cases same : q = p
  · subst same
    simp [absent]
  · simp [same]

end Processes

/-- `line p` is a process and what is above it, up to the process that is not real. -/
structure Lined (s : Processes) (line : Int → List Int) : Prop where
  fake : (s.mProcesses mFakeProcess).isSome
  line_fake : line mFakeProcess = [mFakeProcess]
  line_up : ∀ p process, p ≠ mFakeProcess → s.mProcesses p = some process → line p = p :: line process.parent
  parent_present : ∀ p process, p ≠ mFakeProcess → s.mProcesses p = some process → (s.mProcesses process.parent).isSome

namespace Lined
variable {s : Processes} {line : Int → List Int} {p q : Int}

theorem up_induction (lined : Lined s line) {motive : Int → Prop} (fake : motive mFakeProcess)
    (up : ∀ p process, p ≠ mFakeProcess → s.mProcesses p = some process → motive process.parent → motive p) :
    ∀ p, (s.mProcesses p).isSome → motive p := by
  have bounded : ∀ n p, (line p).length ≤ n → (s.mProcesses p).isSome → motive p := by
    intro n
    induction n with
    | zero =>
      intro p le present
      by_cases is_fake : p = mFakeProcess
      · exact is_fake ▸ fake
      · obtain ⟨process,found⟩ := isSome_iff_exists.mp present
        rw [lined.line_up p process is_fake found] at le
        cases le
    | succ n ih =>
      intro p le present
      by_cases is_fake : p = mFakeProcess
      · exact is_fake ▸ fake
      · obtain ⟨process,found⟩ := isSome_iff_exists.mp present
        rw [lined.line_up p process is_fake found,length_cons] at le
        exact up p process is_fake found
          (ih process.parent (by omega) (lined.parent_present p process is_fake found))
  exact fun p present => bounded _ p (Nat.le_refl _) present

theorem mem_line (lined : Lined s line) (present : (s.mProcesses p).isSome) :
    ∀ q ∈ line p, (s.mProcesses q).isSome ∧ (line q).length ≤ (line p).length := by
  refine lined.up_induction (motive := fun p => ∀ q ∈ line p, (s.mProcesses q).isSome ∧
    (line q).length ≤ (line p).length) ?_ ?_ p present
  · intro q member
    rw [lined.line_fake,mem_singleton] at member
    subst member
    exact ⟨lined.fake,Nat.le_refl _⟩
  · intro p process real found ih q member
    rw [lined.line_up p process real found] at member ⊢
    rcases mem_cons.mp member with same | above
    · subst same
      rw [lined.line_up q process real found]
      exact ⟨by rw [found]; rfl,Nat.le_refl _⟩
    · obtain ⟨there,le⟩ := ih q above
      exact ⟨there,Nat.le_succ_of_le le⟩

theorem not_mem_parent (lined : Lined s line) {process : Process} (real : p ≠ mFakeProcess)
    (found : s.mProcesses p = some process) : p ∉ line process.parent := by
  intro member
  have le := (lined.mem_line (lined.parent_present p process real found) p member).2
  rw [lined.line_up p process real found,length_cons] at le
  omega

theorem self_mem (lined : Lined s line) (present : (s.mProcesses p).isSome) : p ∈ line p := by
  by_cases is_fake : p = mFakeProcess
  · rw [is_fake,lined.line_fake]
    exact mem_singleton.mpr rfl
  · obtain ⟨process,found⟩ := isSome_iff_exists.mp present
    rw [lined.line_up p process is_fake found]
    exact mem_cons_self ..

theorem not_mem_of_leaf (lined : Lined s line)
    (leaf : ∀ p process, p ≠ mFakeProcess → s.mProcesses p = some process → process.parent ≠ q)
    (real : q ≠ mFakeProcess) (other : p ≠ q) (present : (s.mProcesses p).isSome) : q ∉ line p := by
  refine lined.up_induction (motive := fun p => p ≠ q → q ∉ line p) ?_ ?_ p present other
  · intro _ member
    rw [lined.line_fake,mem_singleton] at member
    exact real member
  · intro p process is_real found ih other member
    rw [lined.line_up p process is_real found] at member
    rcases mem_cons.mp member with same | above
    · exact other same.symm
    · exact ih (leaf p process is_real found) above

theorem of_parents {s' : Processes} (lined : Lined s line)
    (same : ∀ p, (s'.mProcesses p).map (·.parent) = (s.mProcesses p).map (·.parent)) : Lined s' line := by
  have present (p : Int) : (s'.mProcesses p).isSome = (s.mProcesses p).isSome := by
    have isSome := congrArg isSome (same p)
    simpa using isSome
  have before {p : Int} {process : Process} (found : s'.mProcesses p = some process) :
      ∃ old, s.mProcesses p = some old ∧ old.parent = process.parent := by
    have parent := same p
    rw [found,map_some] at parent
    exact map_eq_some_iff.mp parent.symm
  refine ⟨(present _).trans lined.fake,lined.line_fake,fun p process real found => ?_,fun p process real found => ?_⟩
  · obtain ⟨old,was,parent⟩ := before found
    rw [← parent]
    exact lined.line_up p old real was
  · obtain ⟨old,was,parent⟩ := before found
    rw [present,← parent]
    exact lined.parent_present p old real was

theorem bump (lined : Lined s line) (delta : Int) (ps : List Int) : Lined (s.bump delta ps) line := by
  refine lined.of_parents fun p => ?_
  simp only [Processes.bump,Option.map_map]
  refine congrArg (Option.map · _) (funext fun process => ?_)
  by_cases member : p ∈ ps <;> simp [member]

theorem attach {t : Processes} {pid : Int} (lined : Lined s line) (real : pid ≠ mFakeProcess)
    (leaf : ∀ p process, p ≠ mFakeProcess → s.mProcesses p = some process → process.parent ≠ pid)
    (there : (s.mProcesses q).isSome) (apart : q ≠ pid)
    (parents : ∀ p, (t.mProcesses p).map (·.parent) = if p = pid then some q else (s.mProcesses p).map (·.parent)) :
    Lined t (Function.update line pid (pid :: line q)) := by
  have present {p : Int} (was : (s.mProcesses p).isSome) : (t.mProcesses p).isSome := by
    have parent := congrArg isSome (parents p)
    rw [isSome_map] at parent
    rw [parent]
    split
    · rfl
    · simpa using was
  have before {p : Int} {process : Process} (other : p ≠ pid) (found : t.mProcesses p = some process) :
      ∃ old, s.mProcesses p = some old ∧ old.parent = process.parent := by
    have parent := parents p
    rw [found,map_some,if_neg other] at parent
    exact map_eq_some_iff.mp parent.symm
  have own {process : Process} (found : t.mProcesses pid = some process) : process.parent = q := by
    have parent := parents pid
    rw [found,map_some,if_pos rfl] at parent
    exact some.inj parent
  have elsewhere {p : Int} (other : p ≠ pid) : update line pid (pid :: line q) p = line p := update_of_ne other ..
  refine ⟨present lined.fake,?_,fun p process is_real found => ?_,fun p process is_real found => ?_⟩
  · rw [elsewhere (Ne.symm real)]
    exact lined.line_fake
  · by_cases same : p = pid
    · subst same
      rw [own found,elsewhere apart,update_self]
    · obtain ⟨old,was,parent⟩ := before same found
      rw [← parent,elsewhere same,elsewhere (leaf p old is_real was)]
      exact lined.line_up p old is_real was
  · by_cases same : p = pid
    · subst same
      rw [own found]
      exact present there
    · obtain ⟨old,was,parent⟩ := before same found
      rw [← parent]
      exact present (lined.parent_present p old is_real was)

theorem detach {t : Processes} {pid : Int} (lined : Lined s line) (real : pid ≠ mFakeProcess)
    (leaf : ∀ p process, p ≠ mFakeProcess → s.mProcesses p = some process → process.parent ≠ pid)
    (parents : ∀ p, (t.mProcesses p).map (·.parent) = if p = pid then none else (s.mProcesses p).map (·.parent)) :
    Lined t line := by
  have present {p : Int} (other : p ≠ pid) (was : (s.mProcesses p).isSome) : (t.mProcesses p).isSome := by
    have parent := congrArg isSome (parents p)
    rw [isSome_map,if_neg other,isSome_map] at parent
    rwa [parent]
  have before {p : Int} {process : Process} (found : t.mProcesses p = some process) :
      ∃ old, s.mProcesses p = some old ∧ old.parent = process.parent := by
    have parent := parents p
    rw [found,map_some] at parent
    split at parent
    · cases parent
    · exact map_eq_some_iff.mp parent.symm
  refine ⟨present (Ne.symm real) lined.fake,lined.line_fake,fun p process is_real found => ?_,
    fun p process is_real found => ?_⟩
  · obtain ⟨old,was,parent⟩ := before found
    rw [← parent]
    exact lined.line_up p old is_real was
  · obtain ⟨old,was,parent⟩ := before found
    rw [← parent]
    exact present (leaf p old is_real was) (lined.parent_present p old is_real was)

theorem count (lined : Lined s line) (delta : Int) : ∀ {fuel : Nat} {p : Int}, (s.mProcesses p).isSome →
    (line p).length ≤ fuel → Processes.count delta fuel p s = some (s.bump delta (line p)) := by
  intro fuel
  induction fuel generalizing s with
  | zero =>
    intro p present le
    have member := lined.self_mem present
    rw [length_eq_zero_iff.mp (Nat.le_zero.mp le)] at member
    cases member
  | succ fuel ih =>
    intro p present le
    obtain ⟨process,found⟩ := isSome_iff_exists.mp present
    simp only [Processes.count,found,bind_eq_bind,bind_some,Processes.modify_eq_bump]
    by_cases is_fake : p = mFakeProcess
    · rw [if_pos is_fake,is_fake,lined.line_fake]
    · have above := lined.line_up p process is_fake found
      have there : ((s.bump delta [p]).mProcesses process.parent).isSome := by
        simpa [Processes.bump] using lined.parent_present p process is_fake found
      rw [above,length_cons] at le
      rw [if_neg is_fake,ih (lined.bump delta [p]) there (by omega),above,
        Processes.bump_bump s delta (lined.not_mem_parent is_fake found)]

end Lined

/-- The processes form a tree, the list has each of them at its index, and the counts are those of what is below. -/
structure Table (s : Processes) (line : Int → List Int) : Prop extends Lined s line where
  listed : ∀ p, p ∈ s.mListProcesses ↔ p ≠ mFakeProcess ∧ (s.mProcesses p).isSome
  nodup : s.mListProcesses.Nodup
  index : ∀ p process, p ≠ mFakeProcess → s.mProcesses p = some process → s.mListProcesses[process.index]? = some p
  once : ∀ q process, s.mProcesses q = some process → process.children.Nodup
  children : ∀ q process, s.mProcesses q = some process → ∀ p, p ∈ process.children ↔
    p ≠ mFakeProcess ∧ ∃ child, s.mProcesses p = some child ∧ child.parent = q
  numChildren : ∀ q process, s.mProcesses q = some process →
    process.numChildren = s.mListProcesses.countP fun p => p ≠ q ∧ q ∈ line p

namespace Table
variable {s : Processes} {line : Int → List Int} {k : Kernel} {p q pid ppid : Int} {fuel : Nat}

theorem parentFor_present (table : Table s line) (ppid : Int) : (s.mProcesses (s.parentFor ppid)).isSome := by
  rw [Processes.parentFor]
  split
  · assumption
  · exact table.fake

theorem nodup_snoc {members : List Int} (nodup : members.Nodup) (absent : p ∉ members) : (members++[p]).Nodup := by
  rw [← concat_eq_append]
  exact nodup.concat absent

/-- The table with a new process. -/
def added (s : Processes) (k : Kernel) (line : Int → List Int) (pid ppid q : Int) : Processes :=
  { s with
    mProcesses := fun p =>
      if p = pid then some ⟨ppid,q,[],0,s.mListProcesses.length,k.status pid⟩
      else (s.mProcesses p).map fun process => { process with
        children := if p = q then process.children++[pid] else process.children
        numChildren := if p ∈ line q then process.numChildren+1 else process.numChildren }
    mListProcesses := s.mListProcesses++[pid] }

theorem addProcess (table : Table s line) (real : pid ≠ mFakeProcess) (absent : s.mProcesses pid = none)
    (enough : (line (s.parentFor ppid)).length ≤ fuel) :
    s.addProcess k fuel pid ppid = some (added s k line pid ppid (s.parentFor ppid)) := by
  have there := table.parentFor_present ppid
  rw [Processes.addProcess]
  generalize s.parentFor ppid = q at there enough
  have apart : q ≠ pid := fun same => by
    rw [same,absent] at there
    cases there
  have above : pid ∉ line q := fun member => by
    have present := (table.mem_line there pid member).1
    rw [absent] at present
    cases present
  generalize inserted : ({ s with
    mProcesses := update s.mProcesses pid (some ⟨ppid,q,[],0,s.mListProcesses.length,.OtherStatus⟩)
    mListProcesses := s.mListProcesses++[pid] } : Processes).modify q
      (fun parent => { parent with children := parent.children++[pid] }) = t
  have get (p : Int) : t.mProcesses p = if p = pid then some ⟨ppid,q,[],0,s.mListProcesses.length,.OtherStatus⟩
      else (s.mProcesses p).map fun process => { process with
        children := if p = q then process.children++[pid] else process.children } := by
    rw [← inserted,Processes.modify_apply]
    by_cases here : p = q
    · subst here
      simp [apart]
    · by_cases new : p = pid
      · simp [new,Ne.symm apart]
      · simp [here,new]
  have lined : Lined t (update line pid (pid :: line q)) := by
    refine table.attach real (fun p process is_real found same => ?_) there apart fun p => ?_
    · have present := table.parent_present p process is_real found
      rw [same,absent] at present
      cases present
    · rw [get]
      split
      · rfl
      · rw [Option.map_map]
        rfl
  have same : Function.update line pid (pid :: line q) q = line q := Function.update_of_ne apart ..
  have present : (t.mProcesses q).isSome := by
    rw [get,if_neg apart]
    simpa using there
  rw [lined.count 1 present (by rwa [same]),same]
  refine congrArg some (Processes.ext (funext fun p => ?_) ?_ ?_ ?_ ?_)
  · simp only [Processes.updateProcessInfo,Processes.modify_apply,Processes.bump,get,added]
    by_cases new : p = pid
    · subst new
      simp [above]
    · by_cases member : p ∈ line q
      · simp [new,member,comp_def]
      · simp [new,member,comp_def]
  all_goals
    rw [← inserted]
    rfl

theorem not_listed (table : Table s line) (absent : s.mProcesses pid = none) : pid ∉ s.mListProcesses := by
  rw [table.listed,absent]
  simp

theorem found_of_listed (table : Table s line) (listed : p ∈ s.mListProcesses) : ∃ process, s.mProcesses p = some process :=
  isSome_iff_exists.mp ((table.listed p).mp listed).2

variable {process : Process}

theorem not_child (table : Table s line) (found : s.mProcesses p = some process)
    (elsewhere : ∀ child, s.mProcesses c = some child → child.parent ≠ p) : c ∉ process.children := by
  intro member
  obtain ⟨-,child,is_child,parent⟩ := (table.children p process found c).mp member
  exact elsewhere child is_child parent

theorem mem_children_iff (table : Table s line) (real : pid ≠ mFakeProcess) {process other : Process}
    (found : s.mProcesses pid = some process) (is_other : s.mProcesses p = some other) :
    pid ∈ other.children ↔ p = process.parent := by
  rw [table.children p other is_other,found]
  simp [real,eq_comm]

theorem given_up {old : Int} {children : List Int} (own : pid ∈ children ↔ p = old) :
    pid ∉ if p = old then children.filter (· ≠ pid) else children := by
  split
  · simp
  · rwa [own]

/-- The children of `p` when a process has been taken from its old parent and given to `q`. -/
theorem mem_handedOver {old : Int} {children : List Int} (own : pid ∈ children ↔ p = old) (r : Int) :
    r ∈ (if p = old then children.filter (· ≠ pid) else children)++(if p = q then [pid] else []) ↔
      if r = pid then p = q else r ∈ children := by
  by_cases same : r = pid
  · subst same
    rw [if_pos rfl,mem_append,or_iff_right (given_up own)]
    by_cases given : p = q
    · simp [given]
    · simp [given]
  · have single : r ∉ if p = q then [pid] else [] := by
      split
      · simpa using same
      · exact not_mem_nil
    rw [if_neg same,mem_append,or_iff_left single]
    split
    · simp [same]
    · rfl

theorem handedOver_nodup {old : Int} {children : List Int} (own : pid ∈ children ↔ p = old) (once : children.Nodup) :
    ((if p = old then children.filter (· ≠ pid) else children)++if p = q then [pid] else []).Nodup := by
  have less : (if p = old then children.filter (· ≠ pid) else children).Nodup := by
    split
    · exact once.filter _
    · exact once
  by_cases given : p = q
  · rw [if_pos given]
    exact nodup_snoc less (given_up own)
  · rwa [if_neg given,append_nil]

theorem added_table (table : Table s line) (real : pid ≠ mFakeProcess) (absent : s.mProcesses pid = none)
    (there : (s.mProcesses q).isSome) :
    Table (added s k line pid ppid q) (Function.update line pid (pid :: line q)) := by
  have apart : q ≠ pid := fun same => by
    rw [same,absent] at there
    cases there
  have unlisted := table.not_listed absent
  have leaf (p : Int) (process : Process) (is_real : p ≠ mFakeProcess) (found : s.mProcesses p = some process) :
      process.parent ≠ pid := fun same => by
    have present := table.parent_present p process is_real found
    rw [same,absent] at present
    cases present
  have lined : Lined (added s k line pid ppid q) (update line pid (pid :: line q)) := by
    refine table.attach real leaf there apart fun p => ?_
    simp only [added]
    split
    · rfl
    · rw [Option.map_map]
      rfl
  have old {p : Int} {process : Process} (other : p ≠ pid)
      (found : (added s k line pid ppid q).mProcesses p = some process) : ∃ was, s.mProcesses p = some was ∧
        { was with
          children := if p = q then was.children++[pid] else was.children
          numChildren := if p ∈ line q then was.numChildren+1 else was.numChildren } = process := by
    simp only [added,if_neg other] at found
    exact map_eq_some_iff.mp found
  have own {process : Process} (found : (added s k line pid ppid q).mProcesses pid = some process) :
      process = ⟨ppid,q,[],0,s.mListProcesses.length,k.status pid⟩ := by
    simp only [added,if_true] at found
    exact (some.inj found).symm
  refine ⟨lined,fun p => ?_,?_,fun p process is_real found => ?_,fun p process found => ?_,
    fun p process found r => ?_,fun r process found => ?_⟩
  · simp only [added,mem_append,mem_singleton,table.listed]
    by_cases new : p = pid
    · simp [new,real]
    · simp [new]
  · exact nodup_snoc table.nodup unlisted
  · by_cases new : p = pid
    · subst new
      rw [own found]
      simp [added]
    · obtain ⟨was,before,rfl⟩ := old new found
      have at_index := table.index p was is_real before
      have bound := (List.getElem?_eq_some_iff.mp at_index).1
      exact (List.getElem?_append_left bound).trans at_index
  · by_cases new : p = pid
    · subst new
      rw [own found]
      exact nodup_nil
    · obtain ⟨was,before,rfl⟩ := old new found
      have once := table.once p was before
      have childless : pid ∉ was.children := table.not_child before fun child is_child => by
        rw [absent] at is_child
        cases is_child
      split
      · exact nodup_snoc once childless
      · exact once
  · have newParent : (∃ child, (added s k line pid ppid q).mProcesses pid = some child ∧ child.parent = p) ↔ p = q := by
      simp [added,eq_comm]
    have oldParent (other : r ≠ pid) : (∃ child, (added s k line pid ppid q).mProcesses r = some child ∧
        child.parent = p) ↔ ∃ child, s.mProcesses r = some child ∧ child.parent = p := by
      simp [added,other]
    by_cases new : p = pid
    · subst new
      rw [own found]
      refine ⟨(nomatch ·),fun ⟨is_real,child⟩ => ?_⟩
      by_cases same : r = p
      · subst same
        exact absurd (newParent.mp child).symm apart
      · obtain ⟨child,is_child,parent⟩ := (oldParent same).mp child
        exact absurd parent (leaf r child is_real is_child)
    · obtain ⟨was,before,rfl⟩ := old new found
      by_cases same : r = pid
      · subst same
        have childless : r ∉ was.children := table.not_child before fun child is_child => by
          rw [absent] at is_child
          cases is_child
        rw [newParent]
        split
        · rename_i here
          simp [here,real]
        · rename_i other
          simp [other,childless]
      · rw [oldParent same,← table.children p was before r]
        split
        · simp [same]
        · rfl
  · have sameLine (p : Int) (listed : p ∈ s.mListProcesses) : update line pid (pid :: line q) p = line p := by
      have other : p ≠ pid := fun same => unlisted (same ▸ listed)
      exact update_of_ne other ..
    have counts : s.mListProcesses.countP (fun p => p ≠ r ∧ r ∈ update line pid (pid :: line q) p) =
        s.mListProcesses.countP fun p => p ≠ r ∧ r ∈ line p :=
      countP_congr fun p listed => by rw [sameLine p listed]
    simp only [added,countP_append,counts,countP_singleton,update_self]
    by_cases new : r = pid
    · subst new
      rw [own found]
      have nothing : s.mListProcesses.countP (fun p => p ≠ r ∧ r ∈ line p) = 0 := by
        refine countP_eq_zero.mpr fun p listed => ?_
        obtain ⟨process,present⟩ := table.found_of_listed listed
        have other : r ∉ line p := fun member => by
          have there := (table.mem_line (by rw [present]; rfl) r member).1
          rw [absent] at there
          cases there
        simp [other]
      rw [nothing]
      simp
    · obtain ⟨was,before,rfl⟩ := old new found
      have count := table.numChildren r was before
      by_cases member : r ∈ line q
      · simp [member,new,Ne.symm new,count]
      · simp [member,new,count]

/-- The table after a process without children has been moved from `o` to `q`. -/
def moved (s : Processes) (k : Kernel) (line : Int → List Int) (pid ppid o q : Int) : Processes :=
  { s with mProcesses := fun p => (s.mProcesses p).map fun process =>
      if p = pid then { process with parent := q, parent_pid := ppid, status := k.status pid }
      else { process with
        children := (if p = o then process.children.filter (· ≠ pid) else process.children)++if p = q then [pid] else []
        numChildren := process.numChildren+(if p ∈ line o then -1 else 0)+if p ∈ line q then 1 else 0 } }

theorem leaf_of_childless (table : Table s line) (found : s.mProcesses pid = some process)
    (childless : process.children = []) (p : Int) (child : Process) (real : p ≠ mFakeProcess)
    (is_child : s.mProcesses p = some child) : child.parent ≠ pid := fun parent => by
  have member := (table.children pid process found p).mpr ⟨real,child,is_child,parent⟩
  rw [childless] at member
  cases member

theorem updateProcess_moved (table : Table s line) (real : pid ≠ mFakeProcess)
    (found : s.mProcesses pid = some process) (differs : process.parent ≠ s.parentFor ppid)
    (childless : process.children = []) (other : ppid ≠ pid) (enough : (line process.parent).length ≤ fuel)
    (enoughNew : (line (s.parentFor ppid)).length ≤ fuel) :
    s.updateProcess k fuel pid ppid = some (moved s k line pid ppid process.parent (s.parentFor ppid)) := by
  have there := table.parentFor_present ppid
  have apart : s.parentFor ppid ≠ pid := by
    rw [Processes.parentFor]
    split
    · exact other
    · exact Ne.symm real
  have leaf := table.leaf_of_childless found childless
  have oldPresent := table.parent_present pid process real found
  have oldApart := leaf pid process real found
  have aboveOld : pid ∉ line process.parent := table.not_mem_parent real found
  have aboveNew : pid ∉ line (s.parentFor ppid) := table.not_mem_of_leaf leaf real apart there
  rw [Processes.updateProcess]
  generalize s.parentFor ppid = q at there apart differs enoughNew aboveNew
  simp only [found,bind_eq_bind,bind_some,if_pos differs,table.count (-1) oldPresent enough]
  generalize remade : (((s.bump (-1) (line process.parent)).modify process.parent
    (fun old => { old with children := old.children.filter (· ≠ pid) })).modify pid
      fun ps => { ps with parent := q }).modify q (fun parent => { parent with children := parent.children++[pid] }) = t
  have get (p : Int) : t.mProcesses p = (s.mProcesses p).map fun process' =>
      if p = pid then { process' with parent := q }
      else { process' with
        children := (if p = process.parent then process'.children.filter (· ≠ pid) else process'.children)++
          if p = q then [pid] else []
        numChildren := process'.numChildren+if p ∈ line process.parent then -1 else 0 } := by
    rw [← remade]
    simp only [Processes.modify_apply,Processes.bump]
    by_cases own : p = pid
    · subst own
      simp [Ne.symm apart,Ne.symm oldApart,aboveOld,found]
    · by_cases is_old : p = process.parent
      · subst is_old
        by_cases member : process.parent ∈ line process.parent <;> simp [own,differs,member,comp_def]
      · by_cases is_new : p = q
        · subst is_new
          by_cases member : p ∈ line process.parent <;> simp [own,is_old,member,comp_def]
        · by_cases member : p ∈ line process.parent <;> simp [own,is_old,is_new,member]
  have lined : Lined t (update line pid (pid :: line q)) := by
    refine table.attach real leaf there apart fun p => ?_
    rw [get,Option.map_map]
    by_cases own : p = pid
    · simp [own,found]
    · simp [own,comp_def]
  have same : update line pid (pid :: line q) q = line q := update_of_ne apart ..
  have present : (t.mProcesses q).isSome := by
    rw [get,isSome_map]
    exact there
  rw [lined.count 1 present (by rwa [same]),same]
  refine congrArg some (Processes.ext (funext fun p => ?_) ?_ ?_ ?_ ?_)
  · simp only [Processes.updateProcessInfo,Processes.modify_apply,Processes.bump,get,moved]
    by_cases own : p = pid
    · subst own
      simp [aboveNew,found]
    · by_cases member : p ∈ line q <;> simp [own,member,comp_def]
  all_goals
    rw [← remade]
    rfl

theorem count_split {members : List Int} (member : pid ∈ members) (P : Int → Bool) :
    members.countP P = (members.erase pid).countP P+if P pid then 1 else 0 := by
  rw [(perm_cons_erase member).countP_eq,countP_cons]

theorem moved_table (table : Table s line) (real : pid ≠ mFakeProcess)
    (found : s.mProcesses pid = some process) (childless : process.children = [])
    (there : (s.mProcesses q).isSome) (apart : q ≠ pid) :
    Table (moved s k line pid ppid process.parent q) (Function.update line pid (pid :: line q)) := by
  have leaf := table.leaf_of_childless found childless
  have listed : pid ∈ s.mListProcesses := (table.listed pid).mpr ⟨real,by rw [found]; rfl⟩
  have old {p : Int} {now : Process} (is_now : (moved s k line pid ppid process.parent q).mProcesses p = some now) :
      ∃ was, s.mProcesses p = some was ∧ now =
        if p = pid then { was with parent := q, parent_pid := ppid, status := k.status pid }
        else { was with
          children := (if p = process.parent then was.children.filter (· ≠ pid) else was.children)++
            if p = q then [pid] else []
          numChildren := was.numChildren+(if p ∈ line process.parent then -1 else 0)+if p ∈ line q then 1 else 0 } := by
    obtain ⟨was,before,same⟩ := map_eq_some_iff.mp is_now
    exact ⟨was,before,same.symm⟩
  have newParent (p : Int) : (∃ child, (moved s k line pid ppid process.parent q).mProcesses pid = some child ∧
      child.parent = p) ↔ p = q := by
    simp [moved,found,eq_comm]
  have oldParent {r : Int} (p : Int) (other : r ≠ pid) :
      (∃ child, (moved s k line pid ppid process.parent q).mProcesses r = some child ∧ child.parent = p) ↔
        ∃ child, s.mProcesses r = some child ∧ child.parent = p := by
    simp [moved,other]
  refine ⟨?_,fun p => ?_,table.nodup,fun p now is_real is_now => ?_,fun p now is_now => ?_,fun p now is_now r => ?_,
    fun r now is_now => ?_⟩
  · refine table.attach real leaf there apart fun p => ?_
    simp only [moved,Option.map_map]
    by_cases own : p = pid
    · simp [own,found]
    · simp [own,comp_def]
  · simpa [moved] using table.listed p
  · obtain ⟨was,before,rfl⟩ := old is_now
    have at_index := table.index p was is_real before
    split <;> exact at_index
  · obtain ⟨was,before,rfl⟩ := old is_now
    have once := table.once p was before
    split
    · exact once
    · exact handedOver_nodup (table.mem_children_iff real found before) once
  · obtain ⟨was,before,rfl⟩ := old is_now
    have children := table.children p was before
    by_cases own : p = pid
    · subst own
      rw [if_pos rfl,children]
      by_cases same : r = p
      · subst same
        rw [newParent]
        exact ⟨fun ⟨_,child,is_child,parent⟩ => absurd parent (leaf r child real is_child),
          fun ⟨_,same⟩ => absurd same.symm apart⟩
      · rw [oldParent p same]
    · rw [if_neg own,mem_handedOver (table.mem_children_iff real found before)]
      by_cases same : r = pid
      · subst same
        rw [if_pos rfl,newParent]
        exact (and_iff_right real).symm
      · rw [if_neg same,oldParent p same,← children r]
  · obtain ⟨was,before,rfl⟩ := old is_now
    have count := table.numChildren r was before
    have others : (s.mListProcesses.erase pid).countP (fun p => p ≠ r ∧ r ∈ update line pid (pid :: line q) p) =
        (s.mListProcesses.erase pid).countP fun p => p ≠ r ∧ r ∈ line p := by
      refine countP_congr fun p member => ?_
      have other : p ≠ pid := (table.nodup.mem_erase_iff.mp member).1
      rw [update_of_ne other]
    have split := count_split listed fun p => p ≠ r ∧ r ∈ update line pid (pid :: line q) p
    have splitOld := count_split listed fun p => p ≠ r ∧ r ∈ line p
    rw [others] at split
    rw [splitOld,table.line_up pid process real found] at count
    rw [update_self] at split
    change _ = ((countP (fun p => p ≠ r ∧ r ∈ update line pid (pid :: line q) p) s.mListProcesses : Nat) : Int)
    rw [split]
    by_cases own : r = pid
    · simpa [own] using count
    · by_cases above : r ∈ line process.parent <;> by_cases aboveNew : r ∈ line q <;>
        simp [own,Ne.symm own,above,aboveNew] at count ⊢ <;> omega

/-- The table without a process that has no children. -/
def removed (s : Processes) (line : Int → List Int) (pid : Int) (process : Process) : Processes :=
  { s with
    mProcesses := fun p =>
      if p = pid then none
      else (s.mProcesses p).map fun it => { it with
        children := if p = process.parent then it.children.filter (· ≠ pid) else it.children
        numChildren := it.numChildren+if p ∈ line process.parent then -1 else 0
        index := if p ∈ s.mListProcesses ∧ it.index > process.index then it.index-1 else it.index }
    mListProcesses := s.mListProcesses.filter (· ≠ pid) }

theorem removeProcess (table : Table s line) (real : pid ≠ mFakeProcess)
    (found : s.mProcesses pid = some process) (childless : process.children = [])
    (enough : (line process.parent).length ≤ fuel) :
    s.removeProcess fuel pid = some (removed s line pid process) := by
  have leaf := table.leaf_of_childless found childless
  have there := table.parent_present pid process real found
  have apart := leaf pid process real found
  rw [Processes.removeProcess]
  simp only [found,bind_eq_bind,bind_some]
  generalize remade : ({ s with
    mProcesses := update s.mProcesses pid none
    mListProcesses := s.mListProcesses.filter (· ≠ pid) } : Processes).modify process.parent
      (fun parent => { parent with children := parent.children.filter (· ≠ pid) }) = t
  have get (p : Int) : t.mProcesses p = if p = pid then none else (s.mProcesses p).map fun it => { it with
      children := if p = process.parent then it.children.filter (· ≠ pid) else it.children } := by
    rw [← remade,Processes.modify_apply]
    by_cases own : p = pid
    · simp [own,Ne.symm apart]
    · by_cases is_parent : p = process.parent
      · subst is_parent
        simp [own]
      · simp [own,is_parent]
  have lined : Lined t line := by
    refine table.detach real leaf fun p => ?_
    rw [get]
    split
    · rfl
    · rw [Option.map_map]
      rfl
  have present : (t.mProcesses process.parent).isSome := by
    rw [get,if_neg apart,isSome_map]
    exact there
  rw [lined.count (-1) present enough]
  refine congrArg some (Processes.ext (funext fun p => ?_) ?_ ?_ ?_ ?_)
  · have listed : t.mListProcesses = s.mListProcesses.filter (· ≠ pid) := by
      rw [← remade]
      rfl
    simp only [listed,Processes.bump,get,removed]
    by_cases own : p = pid
    · simp [own]
    · simp only [if_neg own,Option.map_map]
      refine congrArg (Option.map · _) (funext fun it => ?_)
      by_cases member : p ∈ line process.parent <;>
        by_cases after : p ∈ s.mListProcesses ∧ process.index < it.index <;> simp [own,member,after]
  all_goals
    rw [← remade]
    rfl

theorem removed_table (table : Table s line) (real : pid ≠ mFakeProcess)
    (found : s.mProcesses pid = some process) (childless : process.children = []) :
    Table (removed s line pid process) line := by
  have leaf := table.leaf_of_childless found childless
  have apart := leaf pid process real found
  have listed : pid ∈ s.mListProcesses := (table.listed pid).mpr ⟨real,by rw [found]; rfl⟩
  have old {p : Int} {now : Process} (is_now : (removed s line pid process).mProcesses p = some now) :
      p ≠ pid ∧ ∃ was, s.mProcesses p = some was ∧ now = { was with
        children := if p = process.parent then was.children.filter (· ≠ pid) else was.children
        numChildren := was.numChildren+if p ∈ line process.parent then -1 else 0
        index := if p ∈ s.mListProcesses ∧ was.index > process.index then was.index-1 else was.index } := by
    simp only [removed] at is_now
    split at is_now
    · cases is_now
    · rename_i other
      obtain ⟨was,before,same⟩ := map_eq_some_iff.mp is_now
      exact ⟨other,was,before,same.symm⟩
  have erased : s.mListProcesses.filter (· ≠ pid) = s.mListProcesses.eraseIdx process.index :=
    (Lists.eraseIdx_eq_removeAll table.nodup (table.index pid process real found)).symm
  refine ⟨?_,fun p => ?_,table.nodup.filter _,fun p now is_real is_now => ?_,fun p now is_now => ?_,
    fun p now is_now r => ?_,fun r now is_now => ?_⟩
  · refine table.detach real leaf fun p => ?_
    simp only [removed]
    split
    · rfl
    · rw [Option.map_map]
      rfl
  · simp only [removed,mem_filter,table.listed]
    by_cases own : p = pid <;> simp [own]
  · obtain ⟨other,was,before,rfl⟩ := old is_now
    have at_index := table.index p was is_real before
    have here : p ∈ s.mListProcesses := mem_of_getElem? at_index
    have differs : was.index ≠ process.index := fun same => by
      rw [same,table.index pid process real found] at at_index
      exact other (some.inj at_index).symm
    simp only [removed,erased,here,true_and,getElem?_eraseIdx]
    by_cases after : was.index > process.index
    · have back : was.index-1+1 = was.index := by omega
      rw [if_pos after,if_neg (by omega),back]
      exact at_index
    · rw [if_neg after,if_pos (by omega)]
      exact at_index
  · obtain ⟨-,was,before,rfl⟩ := old is_now
    have once := table.once p was before
    split
    · exact once.filter _
    · exact once
  · obtain ⟨other,was,before,rfl⟩ := old is_now
    have children := table.children p was before
    by_cases same : r = pid
    · subst same
      have absent := given_up (table.mem_children_iff real found before)
      simp only [absent,false_iff]
      rintro ⟨-,child,is_child,-⟩
      exact (old is_child).1 rfl
    · have kept : (∃ child, (removed s line pid process).mProcesses r = some child ∧ child.parent = p) ↔
          ∃ child, s.mProcesses r = some child ∧ child.parent = p := by
        simp [removed,same]
      rw [kept,← children r]
      split
      · simp [same]
      · rfl
  · obtain ⟨other,was,before,rfl⟩ := old is_now
    have count := table.numChildren r was before
    rw [count_split listed,table.line_up pid process real found,← Lists.removeAll_eq_erase table.nodup pid,
      Lists.removeAll] at count
    change _ = (((s.mListProcesses.filter (· ≠ pid)).countP fun p => p ≠ r ∧ r ∈ line p : Nat) : Int)
    by_cases above : r ∈ line process.parent <;> simp [Ne.symm other,other,above] at count ⊢ <;> omega

end Table

end KdeWorkspace.ProcessTable
