import KdeWorkspace.ProcessTable
import Mathlib.Data.Finset.Lattice.Fold
import Mathlib.Data.Prod.Lex

/-!
The rounds in which the table of the processes is updated.

A round deletes what ended in the last one, goes through what the system reports, each parent before its children, and
marks the rest as ended. `Reached.rounds` is about all rounds in which no process that has children gets another parent.
-/
namespace KdeWorkspace.ProcessTable
open List Option Function

/-- `below` has been deleted, and `forgotten` is not waited for any more. -/
structure Reduced (s : Processes) (line : Int → List Int) (below forgotten : Int → Prop) (u : Processes) : Prop where
  table : Table u line
  listed : ∀ p, p ∈ u.mListProcesses ↔ p ∈ s.mListProcesses ∧ ¬below p
  lastTime : ∀ p, p ∈ u.mProcessedLastTime ↔ p ∈ s.mProcessedLastTime ∧ ¬(p ∈ s.mListProcesses ∧ forgotten p)
  toBe : u.mToBeProcessed = s.mToBeProcessed
  ended : u.mEndedProcesses = s.mEndedProcesses

namespace Table
variable {s u : Processes} {line : Int → List Int} {p q c pid : Int}

theorem exists_child (table : Table s line) (present : (s.mProcesses p).isSome) (above : pid ∈ line p)
    (other : p ≠ pid) : ∃ c process, c ∈ line p ∧ c ≠ mFakeProcess ∧ s.mProcesses c = some process ∧
      process.parent = pid := by
  refine table.up_induction (motive := fun p => pid ∈ line p → p ≠ pid → ∃ c process, c ∈ line p ∧ c ≠ mFakeProcess ∧
    s.mProcesses c = some process ∧ process.parent = pid) ?_ ?_ p present above other
  · intro above other
    rw [table.line_fake,mem_singleton] at above
    exact absurd above.symm other
  · intro p process real found ih above other
    have line_up := table.line_up p process real found
    by_cases here : process.parent = pid
    · refine ⟨p,process,?_,real,found,here⟩
      rw [line_up]
      exact mem_cons_self ..
    · rw [line_up] at above
      obtain ⟨c,child,member,rest⟩ := ih ((mem_cons.mp above).resolve_left (Ne.symm other)) here
      refine ⟨c,child,?_,rest⟩
      rw [line_up]
      exact mem_cons_of_mem _ member

theorem present_of_listed (table : Table s line) (listed : p ∈ s.mListProcesses) : (s.mProcesses p).isSome :=
  ((table.listed p).mp listed).2

theorem head_line (table : Table s line) (present : (s.mProcesses p).isSome) : ∃ rest, line p = p :: rest := by
  by_cases is_fake : p = mFakeProcess
  · exact ⟨[],is_fake ▸ table.line_fake⟩
  · obtain ⟨process,found⟩ := isSome_iff_exists.mp present
    exact ⟨_,table.line_up p process is_fake found⟩

variable {process : Process}

theorem child_listed (table : Table s line) (found : s.mProcesses pid = some process)
    (member : c ∈ process.children) : c ∈ s.mListProcesses ∧ line c = c :: line pid := by
  obtain ⟨real,child,is_child,rfl⟩ := (table.children pid process found c).mp member
  exact ⟨(table.listed c).mpr ⟨real,by rw [is_child]; rfl⟩,table.line_up c child real is_child⟩

theorem reduced_refl (table : Table s line) (below : Int → Prop) (nothing : ∀ p ∈ s.mListProcesses, ¬below p)
    (forgotten : Int → Prop) (kept : ∀ p ∈ s.mListProcesses, ¬forgotten p) : Reduced s line below forgotten s :=
  ⟨table,fun p => ⟨fun listed => ⟨listed,nothing p listed⟩,And.left⟩,
    fun p => ⟨fun last => ⟨last,fun gone => kept p gone.1 gone.2⟩,And.left⟩,rfl,rfl⟩

theorem line_trans (table : Table s line) (present : (s.mProcesses p).isSome) :
    ∀ q ∈ line p, ∀ r ∈ line q, r ∈ line p := by
  refine table.up_induction (motive := fun p => ∀ q ∈ line p, ∀ r ∈ line q, r ∈ line p) ?_ ?_ p present
  · intro q member r above
    rw [table.line_fake,mem_singleton] at member
    rwa [member] at above
  · intro p process real found ih q member r above
    rw [table.line_up p process real found] at member ⊢
    rcases mem_cons.mp member with same | higher
    · rwa [same,table.line_up p process real found] at above
    · exact mem_cons_of_mem _ (ih q higher r above)

theorem below_iff (table : Table s line) (found : s.mProcesses pid = some process)
    (listed : p ∈ s.mListProcesses) : (∃ c ∈ process.children, c ∈ line p) ↔ p ≠ pid ∧ pid ∈ line p := by
  have present := table.present_of_listed listed
  constructor
  · rintro ⟨c,member,above⟩
    have up := (table.child_listed found member).2
    refine ⟨?_,table.line_trans present c above pid ?_⟩
    · rintro rfl
      have le := (table.mem_line present c above).2
      rw [up,length_cons] at le
      omega
    · rw [up]
      exact mem_cons_of_mem _ (table.self_mem (by rw [found]; rfl))
  · rintro ⟨other,above⟩
    obtain ⟨c,child,member,real,is_child,parent⟩ := table.exists_child present above other
    exact ⟨c,(table.children pid process found c).mpr ⟨real,child,is_child,parent⟩,member⟩

/-- The loop over the children; `length` is that of their lines. -/
theorem fold_children (table : Table s line) (length depth enough : Nat)
    (delete : ∀ {u : Processes} {c : Int}, Table u line → c ≠ mFakeProcess → (line c).length = length →
      (∀ p ∈ u.mListProcesses, (line p).length ≤ length+depth) →
        ∃ v, (∀ fuel, enough ≤ fuel → Processes.deleteProcess fuel c u = some v) ∧
          Reduced u line (c ∈ line ·) (fun p => p ≠ c ∧ c ∈ line p) v)
    (bound : ∀ p ∈ s.mListProcesses, (line p).length ≤ length+depth) :
    ∀ (more done : List Int) (u : Processes), (∀ c ∈ more, c ∈ s.mListProcesses ∧ (line c).length = length) →
      Reduced s line (fun p => ∃ c ∈ done, c ∈ line p) (fun p => ∃ c ∈ done, c ∈ line p) u →
      ∃ v, (∀ fuel, enough ≤ fuel → more.foldlM (fun s it => Processes.deleteProcess fuel it
          { s with mProcessedLastTime := s.mProcessedLastTime.erase it }) u = some v) ∧
        Reduced s line (fun p => ∃ c ∈ more++done, c ∈ line p) (fun p => ∃ c ∈ more++done, c ∈ line p) v := by
  intro more
  induction more with
  | nil => exact fun done u _ reduced => ⟨u,fun _ _ => rfl,reduced⟩
  | cons c more ih =>
    intro done u given reduced
    obtain ⟨listed,is_length⟩ := given c (mem_cons_self ..)
    have real : c ≠ mFakeProcess := ((table.listed c).mp listed).1
    have self : c ∈ line c := table.self_mem (table.present_of_listed listed)
    have forgot : Table { u with mProcessedLastTime := u.mProcessedLastTime.erase c } line :=
      ⟨⟨reduced.table.fake,reduced.table.line_fake,reduced.table.line_up,reduced.table.parent_present⟩,
        reduced.table.listed,reduced.table.nodup,reduced.table.index,reduced.table.once,reduced.table.children,
        reduced.table.numChildren⟩
    obtain ⟨v,deleted,less⟩ := delete forgot real is_length fun p still =>
      bound p ((reduced.listed p).mp still).1
    have next : Reduced s line (fun p => ∃ d ∈ c :: done, d ∈ line p) (fun p => ∃ d ∈ c :: done, d ∈ line p) v := by
      refine ⟨less.table,fun p => ?_,fun p => ?_,less.toBe.trans reduced.toBe,less.ended.trans reduced.ended⟩
      · rw [less.listed,reduced.listed]
        simp only [mem_cons,exists_eq_or_imp,not_or]
        exact ⟨fun ⟨⟨here,rest⟩,own⟩ => ⟨here,own,rest⟩,fun ⟨here,own,rest⟩ => ⟨⟨here,rest⟩,own⟩⟩
      · rw [less.lastTime,reduced.listed]
        simp only [Finset.mem_erase,reduced.lastTime,mem_cons,exists_eq_or_imp]
        by_cases same : p = c
        · simp [same,listed,self]
        · by_cases here : p ∈ s.mListProcesses
          · by_cases above : c ∈ line p <;> by_cases before : ∃ d ∈ done, d ∈ line p <;> simp [same,here,above,before]
          · simp [same,here]
    obtain ⟨w,rest,all⟩ := ih (c :: done) v (fun d member => given d (mem_cons_of_mem _ member)) next
    refine ⟨w,fun fuel le => ?_,?_⟩
    · rw [foldlM_cons,deleted fuel le]
      exact rest fuel le
    · have same (p : Int) : (∃ d ∈ more++c :: done, d ∈ line p) ↔ ∃ d ∈ c :: more++done, d ∈ line p := by
        simp only [mem_append,mem_cons,cons_append]
        exact exists_congr fun d => and_congr_left' or_left_comm
      simpa only [same] using all

theorem finish_deletion (table : Table s line) (real : pid ≠ mFakeProcess) (found : s.mProcesses pid = some process)
    (reduced : Reduced s line (fun p => ∃ c ∈ process.children, c ∈ line p)
      (fun p => ∃ c ∈ process.children, c ∈ line p) u) :
    ∃ v, (∀ fuel, (line pid).length ≤ fuel → u.removeProcess fuel pid = some v) ∧
      Reduced s line (pid ∈ line ·) (fun p => p ≠ pid ∧ pid ∈ line p) v := by
  have present : (s.mProcesses pid).isSome := by rw [found]; rfl
  have apart (c : Int) (member : c ∈ process.children) : c ∉ line pid := fun above => by
    have le := (table.mem_line present c above).2
    rw [(table.child_listed found member).2,length_cons] at le
    omega
  have still : pid ∈ u.mListProcesses :=
    (reduced.listed pid).mpr ⟨(table.listed pid).mpr ⟨real,present⟩,fun ⟨c,member,above⟩ => apart c member above⟩
  obtain ⟨now,is_now⟩ := reduced.table.found_of_listed still
  have childless : now.children = [] := by
    refine eq_nil_iff_forall_not_mem.mpr fun r member => ?_
    obtain ⟨listed,up⟩ := reduced.table.child_listed is_now member
    obtain ⟨was,gone⟩ := (reduced.listed r).mp listed
    obtain ⟨old,before⟩ := table.found_of_listed was
    have is_real : r ≠ mFakeProcess := ((table.listed r).mp was).1
    have up_old := table.line_up r old is_real before
    obtain ⟨rest,head⟩ := table.head_line present
    obtain ⟨rest',head'⟩ := table.head_line (table.parent_present r old is_real before)
    have parent : old.parent = pid := by
      rw [up,head,head'] at up_old
      exact (cons.inj (cons.inj up_old).2).1.symm
    refine gone ⟨r,(table.children pid process found r).mpr ⟨is_real,old,before,parent⟩,?_⟩
    rw [up]
    exact mem_cons_self ..
  have up := reduced.table.line_up pid now real is_now
  refine ⟨_,fun fuel enough => reduced.table.removeProcess real is_now childless ?_,
    reduced.table.removed_table real is_now childless,fun p => ?_,fun p => ?_,reduced.toBe,reduced.ended⟩
  · rw [up,length_cons] at enough
    omega
  · simp only [removed,mem_filter,reduced.listed,decide_eq_true_eq]
    constructor
    · rintro ⟨⟨listed,none⟩,other⟩
      exact ⟨listed,fun above => none ((table.below_iff found listed).mpr ⟨other,above⟩)⟩
    · rintro ⟨listed,none⟩
      refine ⟨⟨listed,fun below => none ((table.below_iff found listed).mp below).2⟩,?_⟩
      rintro rfl
      exact none (table.self_mem present)
  · refine (reduced.lastTime p).trans (and_congr_right fun _ => not_congr (and_congr_right fun listed => ?_))
    exact table.below_iff found listed

theorem deleteProcess_absent (table : Table s line) (absent : s.mProcesses pid = none) (enough : Nat) :
    ∃ v, (∀ fuel, enough < fuel → Processes.deleteProcess fuel pid s = some v) ∧
      Reduced s line (pid ∈ line ·) (fun p => p ≠ pid ∧ pid ∈ line p) v := by
  have nothing (p : Int) (listed : p ∈ s.mListProcesses) : pid ∉ line p := fun above => by
    have present := (table.mem_line (table.present_of_listed listed) pid above).1
    rw [absent] at present
    cases present
  refine ⟨s,fun fuel more => ?_,table.reduced_refl _ nothing _ fun p listed gone => nothing p listed gone.2⟩
  obtain ⟨fuel,rfl⟩ := Nat.exists_eq_add_of_le' (Nat.one_le_of_lt more)
  rw [Processes.deleteProcess,absent]

theorem deleteProcess_present (table : Table s line) {enough : Nat} (real : pid ≠ mFakeProcess)
    (found : s.mProcesses pid = some process)
    (children : ∃ u, (∀ fuel, enough ≤ fuel → process.children.foldlM (fun s it => Processes.deleteProcess fuel it
        { s with mProcessedLastTime := s.mProcessedLastTime.erase it }) s = some u) ∧
      Reduced s line (fun p => ∃ c ∈ process.children, c ∈ line p) (fun p => ∃ c ∈ process.children, c ∈ line p) u)
    (le : (line pid).length ≤ enough) :
    ∃ v, (∀ fuel, enough < fuel → Processes.deleteProcess fuel pid s = some v) ∧
      Reduced s line (pid ∈ line ·) (fun p => p ≠ pid ∧ pid ∈ line p) v := by
  obtain ⟨u,folded,reduced⟩ := children
  obtain ⟨v,last,all⟩ := table.finish_deletion real found reduced
  refine ⟨v,fun fuel more => ?_,all⟩
  obtain ⟨fuel,rfl⟩ := Nat.exists_eq_add_of_le' (Nat.one_le_of_lt more)
  rw [Processes.deleteProcess,found]
  simp only [folded fuel (by omega),bind_eq_bind,bind_some]
  exact last fuel (by omega)

/-- A deletion ends; `depth` bounds how far what is in the table is below the process. -/
theorem deleteProcess : ∀ (depth : Nat) {s : Processes} {pid : Int}, Table s line → pid ≠ mFakeProcess →
    (∀ p ∈ s.mListProcesses, (line p).length ≤ (line pid).length+depth) →
      ∃ v, (∀ fuel, (line pid).length+2*depth < fuel → Processes.deleteProcess fuel pid s = some v) ∧
        Reduced s line (pid ∈ line ·) (fun p => p ≠ pid ∧ pid ∈ line p) v := by
  intro depth
  induction depth with
  | zero =>
    intro s pid table real bound
    cases found : s.mProcesses pid with
    | none => exact table.deleteProcess_absent found _
    | some process =>
      have childless : process.children = [] := by
        refine eq_nil_iff_forall_not_mem.mpr fun c member => ?_
        obtain ⟨listed,up⟩ := table.child_listed found member
        have le := bound c listed
        rw [up,length_cons] at le
        omega
      refine table.deleteProcess_present real found ⟨s,fun _ _ => by rw [childless]; rfl,?_⟩ (Nat.le_add_right ..)
      have nothing (p : Int) (_ : p ∈ s.mListProcesses) : ¬∃ c ∈ process.children, c ∈ line p := by simp [childless]
      exact table.reduced_refl _ nothing _ nothing
  | succ depth ih =>
    intro s pid table real bound
    cases found : s.mProcesses pid with
    | none => exact table.deleteProcess_absent found _
    | some process =>
      refine table.deleteProcess_present real found ?_ (Nat.le_add_right ..)
      have none_done (p : Int) (_ : p ∈ s.mListProcesses) : ¬∃ c ∈ ([] : List Int), c ∈ line p := by simp
      have all := table.fold_children ((line pid).length+1) depth ((line pid).length+2*(depth+1))
        (fun {u c} table real is_length bound => by
          obtain ⟨v,deleted,reduced⟩ := ih table real (fun p listed => by rw [is_length]; exact bound p listed)
          exact ⟨v,fun fuel le => deleted fuel (by omega),reduced⟩)
        (fun p listed => by have le := bound p listed; omega) process.children [] s
        (fun c member => ⟨(table.child_listed found member).1,by rw [(table.child_listed found member).2]; rfl⟩)
        (table.reduced_refl _ none_done _ none_done)
      simpa only [append_nil] using all

end Table

/-- The call ends, with this result. -/
def Returns (call : Nat → Option Processes) (s : Processes) : Prop := ∃ n, ∀ fuel, n ≤ fuel → call fuel = some s

theorem Returns.unique {call : Nat → Option Processes} {s t : Processes} (first : Returns call s)
    (second : Returns call t) : s = t := by
  obtain ⟨n,first⟩ := first
  obtain ⟨m,second⟩ := second
  have same := (first (n+m) (Nat.le_add_right ..)).symm.trans (second (n+m) (Nat.le_add_left ..))
  exact some.inj same

/-- Where `processesUpdated` is. While pids are gone through, those are kept whose `updateOrAddProcess` has been called
and has not returned; the last is the first of them. -/
inductive Phase
  | idle
  | deleting (rest : Finset Int)
  | processing (k : Kernel) (calls : List Int)

structure Config where
  table : Processes
  phase : Phase

/-- The parent that is asked for; a process that is its own has none. -/
def Kernel.ppid (k : Kernel) (pid : Int) : Int := if k.getParentPid pid = pid then -1 else k.getParentPid pid

/-- `updateOrAddProcess` is called. -/
def Processes.take (s : Processes) (pid : Int) : Processes :=
  { s with
    mToBeProcessed := s.mToBeProcessed.erase pid
    mProcessedLastTime := s.mProcessedLastTime.erase pid }

/-- The steps of a round. The sets are gone through in any order; when the call for a parent has returned, the parent is
not among those to be processed, and the call for the process goes on. -/
inductive Step : Config → Config → Prop
  | start {s : Processes} : Step ⟨s,.idle⟩ ⟨s,.deleting s.mEndedProcesses⟩
  | delete {s s' : Processes} {rest : Finset Int} {pid : Int} (member : pid ∈ rest)
    (ran : Returns (fun fuel => Processes.deleteProcess fuel pid s) s') :
      Step ⟨s,.deleting rest⟩ ⟨s',.deleting (rest.erase pid)⟩
  | report {s : Processes} (k : Kernel) :
      Step ⟨s,.deleting ∅⟩ ⟨{ s with mToBeProcessed := k.getAllPids },.processing k []⟩
  | next {s : Processes} {k : Kernel} {pid : Int} (member : pid ∈ s.mToBeProcessed) :
      Step ⟨s,.processing k []⟩ ⟨s.take pid,.processing k [pid]⟩
  | parentFirst {s : Processes} {k : Kernel} {pid : Int} {calls : List Int} (member : k.ppid pid ∈ s.mToBeProcessed) :
      Step ⟨s,.processing k (pid :: calls)⟩ ⟨s.take (k.ppid pid),.processing k (k.ppid pid :: pid :: calls)⟩
  | add {s s' : Processes} {k : Kernel} {pid : Int} {calls : List Int} (ready : k.ppid pid ∉ s.mToBeProcessed)
    (absent : s.mProcesses pid = none) (ran : Returns (fun fuel => s.addProcess k fuel pid (k.ppid pid)) s') :
      Step ⟨s,.processing k (pid :: calls)⟩ ⟨s',.processing k calls⟩
  | update {s s' : Processes} {k : Kernel} {pid : Int} {calls : List Int} (ready : k.ppid pid ∉ s.mToBeProcessed)
    (present : (s.mProcesses pid).isSome) (ran : Returns (fun fuel => s.updateProcess k fuel pid (k.ppid pid)) s') :
      Step ⟨s,.processing k (pid :: calls)⟩ ⟨s',.processing k calls⟩
  | finish {s : Processes} {k : Kernel} (done : s.mToBeProcessed = ∅) :
      Step ⟨s,.processing k []⟩ ⟨s.markProcessesAsEnded k.getAllPids,.idle⟩

/-- The call that comes next does not give another parent to a process that has children. -/
def Meets (c : Config) : Prop :=
  match c.phase with
  | .processing k (pid :: _) => k.ppid pid ∉ c.table.mToBeProcessed → ∀ process, c.table.mProcesses pid = some process →
      process.parent ≠ c.table.parentFor (k.ppid pid) → process.children = []
  | _ => True

inductive Reached : Config → Prop
  | empty : Reached ⟨.empty,.idle⟩
  | step {c c' : Config} (reached : Reached c) (meets : Meets c) (step : Step c c') : Reached c'

/-- What holds in each phase besides that the table is one. -/
def Known (s : Processes) : Phase → Prop
  | .idle => (∀ p, p ∈ s.mListProcesses ↔ p ∈ s.mProcessedLastTime ∨ p ∈ s.mEndedProcesses) ∧
      (∀ p ∈ s.mEndedProcesses, p ∉ s.mProcessedLastTime) ∧
      ∀ p ∈ s.mEndedProcesses, ∀ process, s.mProcesses p = some process → process.status = .Ended
  | .deleting rest => (∀ p ∈ s.mListProcesses, p ∈ s.mProcessedLastTime ∨ p ∈ rest) ∧
      (∀ p ∈ s.mProcessedLastTime, p ∈ s.mListProcesses) ∧ ∀ p ∈ rest, p ∉ s.mProcessedLastTime ∧ p ≠ mFakeProcess
  | .processing k calls => (∀ p ∈ s.mProcessedLastTime, p ∈ s.mListProcesses) ∧
      (∀ p ∈ s.mListProcesses, p ∈ s.mProcessedLastTime ∨ p ∈ k.getAllPids) ∧
      (∀ p ∈ k.getAllPids, p ∈ s.mToBeProcessed ∨ p ∈ calls ∨ p ∈ s.mListProcesses) ∧
      (∀ p ∈ s.mToBeProcessed, p ∈ k.getAllPids) ∧ (∀ p ∈ calls, p ∈ k.getAllPids) ∧
      ∀ p ∈ s.mProcessedLastTime, p ∈ k.getAllPids → p ∈ s.mToBeProcessed

namespace Table
variable {s t : Processes} {line : Int → List Int} {k : Kernel} {pid ppid : Int}

theorem restate (table : Table s line) (f : Int → Process → Process)
    (keeps : ∀ p process, (f p process).parent = process.parent ∧ (f p process).children = process.children ∧
      (f p process).numChildren = process.numChildren ∧ (f p process).index = process.index)
    (get : ∀ p, t.mProcesses p = (s.mProcesses p).map (f p)) (list : t.mListProcesses = s.mListProcesses) :
    Table t line := by
  have present (p : Int) : (t.mProcesses p).isSome = (s.mProcesses p).isSome := by rw [get,isSome_map]
  have old {p : Int} {now : Process} (is_now : t.mProcesses p = some now) :
      ∃ was, s.mProcesses p = some was ∧ f p was = now := by
    rw [get] at is_now
    exact map_eq_some_iff.mp is_now
  refine ⟨table.of_parents fun p => ?_,fun p => ?_,list ▸ table.nodup,fun p now real is_now => ?_,
    fun p now is_now => ?_,fun p now is_now r => ?_,fun r now is_now => ?_⟩
  · rw [get,Option.map_map]
    exact congrArg (Option.map · _) (funext fun process => (keeps p process).1)
  · rw [list,present]
    exact table.listed p
  · obtain ⟨was,before,rfl⟩ := old is_now
    rw [list,(keeps p was).2.2.2]
    exact table.index p was real before
  · obtain ⟨was,before,rfl⟩ := old is_now
    rw [(keeps p was).2.1]
    exact table.once p was before
  · obtain ⟨was,before,rfl⟩ := old is_now
    rw [(keeps p was).2.1,table.children p was before]
    refine and_congr_right fun _ => ⟨fun ⟨child,is_child,parent⟩ => ?_,fun ⟨child,is_child,parent⟩ => ?_⟩
    · exact ⟨f r child,by rw [get,is_child]; rfl,by rw [(keeps r child).1,parent]⟩
    · obtain ⟨child,was_child,rfl⟩ := old is_child
      exact ⟨child,was_child,by rw [← parent,(keeps r child).1]⟩
  · obtain ⟨was,before,rfl⟩ := old is_now
    rw [list,(keeps r was).2.2.1]
    exact table.numChildren r was before

theorem returns_addProcess (table : Table s line) (real : pid ≠ mFakeProcess) (absent : s.mProcesses pid = none)
    (ppid : Int) : ∃ s' line', Returns (fun fuel => s.addProcess k fuel pid ppid) s' ∧ Table s' line' ∧
      s'.mListProcesses = s.mListProcesses++[pid] ∧ s'.mProcessedLastTime = s.mProcessedLastTime ∧
        s'.mToBeProcessed = s.mToBeProcessed :=
  ⟨_,_,⟨_,fun _ enough => table.addProcess real absent enough⟩,
    table.added_table real absent (table.parentFor_present ppid),rfl,rfl,rfl⟩

theorem updateProcess_kept {process : Process} (found : s.mProcesses pid = some process)
    (same : process.parent = s.parentFor ppid) (fuel : Nat) : s.updateProcess k fuel pid ppid =
      some ((s.modify pid fun ps => { ps with parent_pid := ppid }).updateProcessInfo k pid) := by
  simp [Processes.updateProcess,found,same]

theorem returns_updateProcess (table : Table s line) (real : pid ≠ mFakeProcess) (present : (s.mProcesses pid).isSome)
    (other : ppid ≠ pid) (leaf : ∀ process, s.mProcesses pid = some process → process.parent ≠ s.parentFor ppid →
      process.children = []) : ∃ s' line', Returns (fun fuel => s.updateProcess k fuel pid ppid) s' ∧ Table s' line' ∧
      s'.mListProcesses = s.mListProcesses ∧ s'.mProcessedLastTime = s.mProcessedLastTime ∧
        s'.mToBeProcessed = s.mToBeProcessed := by
  obtain ⟨process,found⟩ := isSome_iff_exists.mp present
  by_cases same : process.parent = s.parentFor ppid
  · refine ⟨_,line,⟨0,fun fuel _ => updateProcess_kept found same fuel⟩,?_,rfl,rfl,rfl⟩
    refine table.restate (fun p process => if p = pid then { process with parent_pid := ppid, status := k.status pid }
      else process) (fun p process => by split <;> simp) (fun p => ?_) rfl
    simp only [Processes.updateProcessInfo,Processes.modify_apply]
    by_cases own : p = pid
    · simp [own,comp_def]
    · simp [own]
  · have childless := leaf process found same
    have apart : s.parentFor ppid ≠ pid := by
      rw [Processes.parentFor]
      split
      · exact other
      · exact Ne.symm real
    refine ⟨moved s k line pid ppid process.parent (s.parentFor ppid),_,
      ⟨(line process.parent).length+(line (s.parentFor ppid)).length,fun fuel enough => ?_⟩,
      table.moved_table real found childless (table.parentFor_present ppid) apart,rfl,rfl,rfl⟩
    exact table.updateProcess_moved real found same childless other (by omega) (by omega)

theorem returns_deleteProcess (table : Table s line) (real : pid ≠ mFakeProcess) :
    ∃ s', Returns (fun fuel => Processes.deleteProcess fuel pid s) s' ∧
      Reduced s line (pid ∈ line ·) (fun p => p ≠ pid ∧ pid ∈ line p) s' := by
  obtain ⟨depth,bound⟩ : ∃ depth, ∀ p ∈ s.mListProcesses, (line p).length ≤ (line pid).length+depth := by
    refine ⟨(s.mListProcesses.toFinset.sup fun p => (line p).length),fun p listed => ?_⟩
    have le := Finset.le_sup (f := fun p => (line p).length) (mem_toFinset.mpr listed)
    exact Nat.le_trans le (Nat.le_add_left ..)
  obtain ⟨s',deleted,reduced⟩ := table.deleteProcess depth real bound
  exact ⟨s',⟨_,fun fuel enough => deleted fuel enough⟩,reduced⟩

end Table

/-- What holds after every step. -/
def Sound (c : Config) : Prop := ∃ line, Table c.table line ∧ Known c.table c.phase

theorem Table.sets {s t : Processes} {line : Int → List Int} (table : Table s line) (get : t.mProcesses = s.mProcesses)
    (list : t.mListProcesses = s.mListProcesses) : Table t line :=
  table.restate (fun _ process => process) (fun _ _ => ⟨rfl,rfl,rfl,rfl⟩) (fun p => by rw [get]; simp) list

variable {k : Kernel} {s : Processes}

theorem known_take {calls : List Int} {pid : Int} (known : Known s (.processing k calls))
    (member : pid ∈ s.mToBeProcessed) : Known (s.take pid) (.processing k (pid :: calls)) := by
  obtain ⟨there,from_where,waits,toBe,called,last⟩ := known
  refine ⟨fun p inside => there p (Finset.mem_of_mem_erase inside),fun p listed => ?_,fun p reported => ?_,
    fun p inside => toBe p (Finset.mem_of_mem_erase inside),fun p inside => ?_,fun p inside reported => ?_⟩
  · by_cases same : p = pid
    · exact .inr (same ▸ toBe pid member)
    · rcases from_where p listed with before | reported
      · exact .inl (Finset.mem_erase.mpr ⟨same,before⟩)
      · exact .inr reported
  · by_cases same : p = pid
    · exact .inr (.inl (same ▸ mem_cons_self ..))
    · rcases waits p reported with toBe | in_call | listed
      · exact .inl (Finset.mem_erase.mpr ⟨same,toBe⟩)
      · exact .inr (.inl (mem_cons_of_mem _ in_call))
      · exact .inr (.inr listed)
  · rcases mem_cons.mp inside with same | before
    · exact same ▸ toBe pid member
    · exact called p before
  · obtain ⟨other,before⟩ := Finset.mem_erase.mp inside
    exact Finset.mem_erase.mpr ⟨other,last p before reported⟩

theorem known_return {s s' : Processes} {calls : List Int} {pid : Int} (known : Known s (.processing k (pid :: calls)))
    (listed : ∀ p, p ∈ s'.mListProcesses ↔ p ∈ s.mListProcesses ∨ p = pid)
    (last : s'.mProcessedLastTime = s.mProcessedLastTime) (toBe : s'.mToBeProcessed = s.mToBeProcessed) :
    Known s' (.processing k calls) := by
  obtain ⟨there,from_where,waits,reported,called,order⟩ := known
  refine ⟨fun p inside => (listed p).mpr (.inl (there p (last ▸ inside))),fun p now => ?_,fun p inside => ?_,
    toBe ▸ reported,fun p inside => called p (mem_cons_of_mem _ inside),by rw [last,toBe]; exact order⟩
  · rw [last]
    rcases (listed p).mp now with before | same
    · exact from_where p before
    · exact .inr (same ▸ called pid (mem_cons_self ..))
  · rw [toBe,listed]
    rcases waits p inside with waiting | in_call | before
    · exact .inl waiting
    · rcases mem_cons.mp in_call with same | other
      · exact .inr (.inr (.inr same))
      · exact .inr (.inl other)
    · exact .inr (.inr (.inl before))

theorem real_of_call {calls : List Int} {pid : Int}
    (known : Known s (.processing k (pid :: calls))) : pid ≠ mFakeProcess := by
  have le := k.real pid (known.2.2.2.2.1 pid (mem_cons_self ..))
  rintro rfl
  exact absurd le (by decide)

theorem ppid_ne (k : Kernel) {pid : Int} (real : pid ≠ mFakeProcess) : k.ppid pid ≠ pid := by
  rw [Kernel.ppid]
  split
  · exact Ne.symm real
  · assumption

theorem step_sound {c c' : Config} (sound : Sound c) (meets : Meets c) (step : Step c c') : Sound c' := by
  obtain ⟨line,table,known⟩ := sound
  cases step with
  | start =>
    obtain ⟨listed,apart,-⟩ := known
    refine ⟨line,table,fun p inside => (listed p).mp inside,fun p inside => (listed p).mpr (.inl inside),
      fun p inside => ⟨apart p inside,((table.listed p).mp ((listed p).mpr (.inr inside))).1⟩⟩
  | @delete s s' rest pid member ran =>
    obtain ⟨from_where,there,apart⟩ := known
    obtain ⟨forgotten,real⟩ := apart pid member
    obtain ⟨v,returns,reduced⟩ := table.returns_deleteProcess real
    cases ran.unique returns
    refine ⟨line,reduced.table,fun p inside => ?_,fun p inside => ?_,fun p inside => ?_⟩
    · obtain ⟨before,above⟩ := (reduced.listed p).mp inside
      rcases from_where p before with last | ended
      · exact .inl ((reduced.lastTime p).mpr ⟨last,fun gone => above gone.2.2⟩)
      · refine .inr (Finset.mem_erase.mpr ⟨?_,ended⟩)
        rintro rfl
        exact above (table.self_mem (table.present_of_listed before))
    · obtain ⟨last,kept⟩ := (reduced.lastTime p).mp inside
      refine (reduced.listed p).mpr ⟨there p last,fun above => kept ⟨there p last,?_,above⟩⟩
      rintro rfl
      exact forgotten last
    · obtain ⟨not_last,is_real⟩ := apart p (Finset.mem_of_mem_erase inside)
      exact ⟨fun last => not_last ((reduced.lastTime p).mp last).1,is_real⟩
  | report k =>
    obtain ⟨from_where,there,-⟩ := known
    refine ⟨line,table.sets rfl rfl,there,fun p listed => ?_,fun p reported => .inl reported,fun p inside => inside,
      fun _ inside => (nomatch inside),fun p _ reported => reported⟩
    rcases from_where p listed with last | ended
    · exact .inl last
    · simp at ended
  | next member => exact ⟨line,table.sets rfl rfl,known_take known member⟩
  | parentFirst member => exact ⟨line,table.sets rfl rfl,known_take known member⟩
  | @add s s' k pid calls ready absent ran =>
    obtain ⟨v,line',returns,added,list,last,toBe⟩ :=
      table.returns_addProcess (k := k) (real_of_call known) absent (k.ppid pid)
    cases ran.unique returns
    exact ⟨line',added,known_return known (fun p => by rw [list]; simp) last toBe⟩
  | @update s s' k pid calls ready present ran =>
    have real := real_of_call known
    obtain ⟨v,line',returns,updated,list,last,toBe⟩ :=
      table.returns_updateProcess (k := k) real present (ppid_ne k real) (meets ready)
    cases ran.unique returns
    have listed : pid ∈ s.mListProcesses := (table.listed pid).mpr ⟨real,present⟩
    refine ⟨line',updated,known_return known (fun p => ?_) last toBe⟩
    rw [list]
    exact ⟨.inl,fun inside => inside.elim id (· ▸ listed)⟩
  | @finish s k done =>
    obtain ⟨there,from_where,waits,-,-,order⟩ := known
    have nothing (p : Int) : p ∉ s.mToBeProcessed := by
      rw [done]
      exact Finset.notMem_empty p
    have marked := table.restate (t := s.markProcessesAsEnded k.getAllPids)
      (fun p process => if p ∈ s.mProcessedLastTime then { process with status := .Ended } else process)
      (fun p process => by split <;> simp) (fun _ => rfl) rfl
    refine ⟨line,marked,fun p => ⟨fun listed => (from_where p listed).symm,fun inside => ?_⟩,
      fun p ended reported => nothing p (order p ended reported),fun p ended process found => ?_⟩
    · rcases inside with reported | last
      · rcases waits p reported with toBe | in_call | listed
        · exact absurd toBe (nothing p)
        · cases in_call
        · exact listed
      · exact there p last
    · obtain ⟨was,-,rfl⟩ := map_eq_some_iff.mp found
      exact congrArg Process.status (if_pos ended)

theorem empty_table : Table .empty fun p => if p = mFakeProcess then [mFakeProcess] else [] := by
  have only {p : Int} {process : Process} (found : Processes.empty.mProcesses p = some process) :
      p = mFakeProcess ∧ process = ⟨-1,mFakeProcess,[],0,0,.OtherStatus⟩ := by
    simp only [Processes.empty] at found
    split at found
    · exact ⟨by assumption,(some.inj found).symm⟩
    · cases found
  refine ⟨⟨rfl,rfl,fun p process real found => absurd (only found).1 real,
    fun p process real found => absurd (only found).1 real⟩,fun p => ?_,nodup_nil,
    fun p process real found => absurd (only found).1 real,fun p process found => ?_,fun q process found p => ?_,
    fun p process found => ?_⟩
  · simp only [Processes.empty,not_mem_nil,false_iff]
    rintro ⟨real,present⟩
    simp [real] at present
  · rw [(only found).2]
    exact nodup_nil
  · rw [(only found).2]
    refine ⟨(nomatch ·),fun ⟨real,child,is_child,_⟩ => absurd (only is_child).1 real⟩
  · rw [(only found).2]
    rfl

theorem Reached.sound {c : Config} (reached : Reached c) : Sound c := by
  induction reached with
  | empty => exact ⟨_,empty_table,by simp [Known,Processes.empty]⟩
  | step _ meets step ih => exact step_sound ih meets step

/-- How much of a round is left. -/
def left (c : Config) : Nat ×ₗ Nat :=
  match c.phase with
  | .idle => toLex (0,0)
  | .processing _ calls => toLex (1,2*c.table.mToBeProcessed.card+calls.length)
  | .deleting rest => toLex (2,rest.card)

theorem left_lt {c c' : Config} (sound : Sound c) (meets : Meets c) (step : Step c c') (busy : c.phase ≠ .idle) :
    left c' < left c := by
  obtain ⟨line,table,known⟩ := sound
  cases step with
  | start => exact absurd rfl busy
  | delete member ran =>
    refine Prod.Lex.toLex_lt_toLex.mpr (.inr ⟨rfl,?_⟩)
    exact Finset.card_erase_lt_of_mem member
  | report k => exact Prod.Lex.toLex_lt_toLex.mpr (.inl Nat.one_lt_two)
  | next member =>
    refine Prod.Lex.toLex_lt_toLex.mpr (.inr ⟨rfl,?_⟩)
    have less := Finset.card_erase_lt_of_mem member
    simp only [Processes.take,length_cons,length_nil]
    omega
  | parentFirst member =>
    refine Prod.Lex.toLex_lt_toLex.mpr (.inr ⟨rfl,?_⟩)
    have less := Finset.card_erase_lt_of_mem member
    simp only [Processes.take,length_cons]
    omega
  | @add s s' k pid calls ready absent ran =>
    obtain ⟨v,-,returns,-,-,-,toBe⟩ := table.returns_addProcess (k := k) (real_of_call known) absent (k.ppid pid)
    cases ran.unique returns
    refine Prod.Lex.toLex_lt_toLex.mpr (.inr ⟨rfl,?_⟩)
    simp [toBe]
  | @update s s' k pid calls ready present ran =>
    have real := real_of_call known
    obtain ⟨v,-,returns,-,-,-,toBe⟩ := table.returns_updateProcess (k := k) real present (ppid_ne k real) (meets ready)
    cases ran.unique returns
    refine Prod.Lex.toLex_lt_toLex.mpr (.inr ⟨rfl,?_⟩)
    simp [toBe]
  | finish done => exact Prod.Lex.toLex_lt_toLex.mpr (.inl Nat.zero_lt_one)

theorem exists_step {c : Config} (sound : Sound c) (meets : Meets c) : ∃ c', Step c c' := by
  obtain ⟨line,table,known⟩ := sound
  obtain ⟨s,phase⟩ := c
  cases phase with
  | idle => exact ⟨_,.start⟩
  | deleting rest =>
    rcases rest.eq_empty_or_nonempty with rfl | ⟨pid,member⟩
    · exact ⟨_,.report ⟨∅,fun _ member => absurd member (Finset.notMem_empty _),id,fun _ => .OtherStatus⟩⟩
    · obtain ⟨v,returns,-⟩ := table.returns_deleteProcess (known.2.2 pid member).2
      exact ⟨_,.delete member returns⟩
  | processing k calls =>
    cases calls with
    | nil =>
      rcases s.mToBeProcessed.eq_empty_or_nonempty with done | ⟨pid,member⟩
      · exact ⟨_,.finish done⟩
      · exact ⟨_,.next member⟩
    | cons pid calls =>
      by_cases ready : k.ppid pid ∈ s.mToBeProcessed
      · exact ⟨_,.parentFirst ready⟩
      · have real := real_of_call known
        cases found : s.mProcesses pid with
        | none =>
          obtain ⟨v,-,returns,-⟩ := table.returns_addProcess (k := k) real found (k.ppid pid)
          exact ⟨_,.add ready found returns⟩
        | some process =>
          have present : (s.mProcesses pid).isSome := by rw [found]; rfl
          obtain ⟨v,-,returns,-⟩ := table.returns_updateProcess (k := k) real present (ppid_ne k real) (meets ready)
          exact ⟨_,.update ready present returns⟩

theorem count_more {delta : Int} : ∀ {fuel : Nat} {p : Int} {s s' : Processes}, Processes.count delta fuel p s = some s' →
    ∀ {more : Nat}, fuel ≤ more → Processes.count delta more p s = some s' := by
  intro fuel
  induction fuel with
  | zero => exact fun ran => (nomatch ran)
  | succ fuel ih =>
    intro p s s' ran more le
    obtain ⟨more,rfl⟩ := Nat.exists_eq_add_of_le' (Nat.one_le_of_lt le)
    simp only [Processes.count,bind_eq_bind] at ran ⊢
    obtain ⟨process,found,rest⟩ := bind_eq_some_iff.mp ran
    rw [found,bind_some]
    split at rest
    · rename_i is_fake
      rwa [if_pos is_fake]
    · rename_i real
      rw [if_neg real]
      exact ih rest (by omega)

theorem Returns.of_addProcess {s s' : Processes} {fuel : Nat} {pid ppid : Int}
    (ran : s.addProcess k fuel pid ppid = some s') : Returns (fun fuel => s.addProcess k fuel pid ppid) s' := by
  refine ⟨fuel,fun more le => ?_⟩
  simp only [Processes.addProcess,bind_eq_bind] at ran ⊢
  obtain ⟨u,counted,rest⟩ := bind_eq_some_iff.mp ran
  rw [count_more counted le,bind_some]
  exact rest

theorem Returns.of_updateProcess {s s' : Processes} {fuel : Nat} {pid ppid : Int}
    (ran : s.updateProcess k fuel pid ppid = some s') : Returns (fun fuel => s.updateProcess k fuel pid ppid) s' := by
  refine ⟨fuel,fun more le => ?_⟩
  simp only [Processes.updateProcess,bind_eq_bind] at ran ⊢
  obtain ⟨ps,found,ran⟩ := bind_eq_some_iff.mp ran
  rw [found,bind_some]
  split at ran
  · rename_i differs
    rw [if_pos differs]
    obtain ⟨u,first,rest⟩ := bind_eq_some_iff.mp ran
    obtain ⟨v,second,rest⟩ := bind_eq_some_iff.mp rest
    rw [count_more first le,bind_some,count_more second le,bind_some]
    exact rest
  · rename_i same
    rwa [if_neg same]

/-- Three processes; the second has the given parent, and the third is below the second. -/
def three (parent : Int) : Kernel where
  getAllPids := {1,2,3}
  real := by decide
  getParentPid pid := if pid = 3 then 2 else if pid = 2 then parent else 0
  status _ := .Running

def processed (s : Processes) (k : Kernel) (pid : Int) : Processes :=
  ((if (s.take pid).mProcesses pid = none then (s.take pid).addProcess k 5 pid (k.ppid pid)
    else (s.take pid).updateProcess k 5 pid (k.ppid pid)).getD s)

/-- The table after a round with the three processes, when none had ended. -/
def afterRound (s : Processes) (k : Kernel) : Processes :=
  (processed (processed (processed { s with mToBeProcessed := k.getAllPids } k 1) k 2) k 3).markProcessesAsEnded
    k.getAllPids

theorem processed_steps {pid : Int} (member : pid ∈ s.mToBeProcessed) (ready : k.ppid pid ∉ (s.take pid).mToBeProcessed)
    (ends : (if (s.take pid).mProcesses pid = none then (s.take pid).addProcess k 5 pid (k.ppid pid)
      else (s.take pid).updateProcess k 5 pid (k.ppid pid)).isSome) :
    Relation.ReflTransGen Step ⟨s,.processing k []⟩ ⟨processed s k pid,.processing k []⟩ := by
  refine .head (.next member) (.single ?_)
  rw [processed]
  split at ends
  · rename_i absent
    obtain ⟨s',ran⟩ := isSome_iff_exists.mp ends
    rw [if_pos absent,ran]
    exact .add ready absent (.of_addProcess ran)
  · rename_i present
    obtain ⟨s',ran⟩ := isSome_iff_exists.mp ends
    rw [if_neg present,ran]
    exact .update ready (isSome_iff_ne_none.mpr present) (.of_updateProcess ran)

theorem afterRound_steps (none_ended : s.mEndedProcesses = ∅)
    (rounds : ∀ t, t = { s with mToBeProcessed := k.getAllPids } → ∀ u, u = processed t k 1 → ∀ v, v = processed u k 2 →
      Relation.ReflTransGen Step ⟨t,.processing k []⟩ ⟨u,.processing k []⟩ ∧
      Relation.ReflTransGen Step ⟨u,.processing k []⟩ ⟨v,.processing k []⟩ ∧
      Relation.ReflTransGen Step ⟨v,.processing k []⟩ ⟨processed v k 3,.processing k []⟩ ∧
        (processed v k 3).mToBeProcessed = ∅) :
    Relation.ReflTransGen Step ⟨s,.idle⟩ ⟨afterRound s k,.idle⟩ := by
  obtain ⟨first,second,third,done⟩ := rounds _ rfl _ rfl _ rfl
  have begun : Step ⟨s,.idle⟩ ⟨s,.deleting ∅⟩ := none_ended ▸ .start
  exact .head begun (.head (.report k) (((first.trans second).trans third).tail (.finish done)))

theorem first_round : Relation.ReflTransGen Step ⟨.empty,.idle⟩ ⟨afterRound .empty (three 1),.idle⟩ := by
  refine afterRound_steps rfl ?_
  rintro _ rfl _ rfl _ rfl
  refine ⟨processed_steps (by decide) (by decide) (by decide),processed_steps (by decide) (by decide) (by decide),
    processed_steps (by decide) (by decide) (by decide),by decide⟩

theorem added_reached (pid : Int) (reached : Reached ⟨s,.processing k []⟩)
    (member : pid ∈ s.mToBeProcessed) (ready : k.ppid pid ∉ (s.take pid).mToBeProcessed)
    (absent : (s.take pid).mProcesses pid = none) (ends : ((s.take pid).addProcess k 5 pid (k.ppid pid)).isSome) :
    Reached ⟨processed s k pid,.processing k []⟩ := by
  obtain ⟨s',ran⟩ := isSome_iff_exists.mp ends
  have meets : Meets ⟨s.take pid,.processing k [pid]⟩ := fun _ process found => by
    change (s.take pid).mProcesses pid = some process at found
    rw [absent] at found
    cases found
  rw [processed,if_pos absent,ran]
  exact .step (.step reached trivial (.next member)) meets (.add ready absent (.of_addProcess ran))

theorem reached_three : Reached ⟨afterRound .empty (three 1),.idle⟩ := by
  have begun : Reached ⟨.empty,.deleting ∅⟩ := .step .empty trivial .start
  have first := added_reached 1 (.step begun trivial (.report (three 1))) (by decide) (by decide) (by decide)
    (by decide)
  have second := added_reached 2 first (by decide) (by decide) (by decide) (by decide)
  have third := added_reached 3 second (by decide) (by decide) (by decide) (by decide)
  exact .step third trivial (.finish (by decide))

end KdeWorkspace.ProcessTable
