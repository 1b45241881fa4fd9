import KdeWorkspace.ProcessMoves
import Mathlib.Algebra.BigOperators.Group.Finset.Piecewise
import Mathlib.Data.BitVec
import Mathlib.Tactic.Abel

/-!
The usage of the processes and of what is below them.

When a process is updated its total is set to its own usage, which is then added to the total of each process above
it. In a round the parent of a process is updated first, so each total is reset before anything is added to it and the
totals are right when the round is over (`totals_right`).
-/
namespace KdeWorkspace.ProcessTotals
open ProcessTable List Option Function
open scoped BigOperators

/-- The times of a process and the usage that is computed from them; the percentages are of type `int`. -/
structure Usage where
  userTime : Int
  sysTime : Int
  elapsedTimeMilliSeconds : Int
  userUsage : BitVec 32
  sysUsage : BitVec 32
  totalUserUsage : BitVec 32
  totalSysUsage : BitVec 32
deriving DecidableEq, Repr

namespace Usage

def clear : Usage := ⟨0,0,0,0,0,0,0⟩

/-- User and system time together. -/
def own (ps : Usage) : BitVec 32 × BitVec 32 := (ps.userUsage,ps.sysUsage)

def total (ps : Usage) : BitVec 32 × BitVec 32 := (ps.totalUserUsage,ps.totalSysUsage)

def add (ps : Usage) (share : BitVec 32 × BitVec 32) : Usage :=
  { ps with totalUserUsage := ps.totalUserUsage+share.1, totalSysUsage := ps.totalSysUsage+share.2 }

@[simp] theorem own_add (ps : Usage) (share : BitVec 32 × BitVec 32) : (ps.add share).own = ps.own := rfl

@[simp] theorem total_add (ps : Usage) (share : BitVec 32 × BitVec 32) : (ps.add share).total = ps.total+share := rfl

end Usage

/-- What is reported in one round. `percent` turns a time and the time that has passed into a percentage, by a
division of floating point numbers. -/
structure Report extends Kernel where
  mUsingHistoricalData : Bool
  mElapsedTimeMilliSeconds : Int
  userTime : Int → Int
  sysTime : Int → Int
  elapsed : Int → Int
  userUsage : Int → BitVec 32
  sysUsage : Int → BitVec 32
  percent : Int → Int → BitVec 32

/-- The loop that goes from a parent up to the process that is not real. -/
def addUsage (s : Processes) (share : BitVec 32 × BitVec 32) : Nat → Int → (Int → Usage) → Option (Int → Usage)
  | 0,_,_ => none
  | fuel+1,p,usage =>
    if p = mFakeProcess then some usage
    else do
      let process ← s.mProcesses p
      addUsage s share fuel process.parent (Function.update usage p ((usage p).add share))

namespace Report

/-- The first half of `updateProcessInfo`. -/
def read (r : Report) (pid : Int) (old : Usage) : Usage :=
  let ps := { old with userTime := r.userTime pid, sysTime := r.sysTime pid }
  if r.mUsingHistoricalData then { ps with userUsage := r.userUsage pid, sysUsage := r.sysUsage pid }
  else if r.mElapsedTimeMilliSeconds ≠ 0 then
    let elapsedTime := r.elapsed pid-ps.elapsedTimeMilliSeconds+r.mElapsedTimeMilliSeconds
    let ps := { ps with elapsedTimeMilliSeconds := r.elapsed pid }
    if elapsedTime ≠ 0 then
      { ps with
        userUsage := r.percent (ps.userTime-old.userTime) elapsedTime
        sysUsage := r.percent (ps.sysTime-old.sysTime) elapsedTime }
    else ps
  else ps

def updateProcessInfo (r : Report) (s : Processes) (fuel : Nat) (pid : Int) (usage : Int → Usage) :
    Option (Int → Usage) := do
  let ps := r.read pid (usage pid)
  if r.mUsingHistoricalData || r.mElapsedTimeMilliSeconds ≠ 0 then
    let ps := { ps with totalUserUsage := ps.userUsage, totalSysUsage := ps.sysUsage }
    let usage := Function.update usage pid ps
    if ps.userUsage ≠ 0 || ps.sysUsage ≠ 0 then
      let process ← s.mProcesses pid
      addUsage s ps.own fuel process.parent usage
    else some usage
  else some (Function.update usage pid ps)

end Report

inductive Phase
  | idle
  | deleting (rest : Finset Int)
  | processing (r : Report) (calls : List Int)

structure Config where
  table : Processes
  usage : Int → Usage
  phase : Phase

/-- The call ends, with this result. -/
def Ends (call : Nat → Option (Int → Usage)) (usage : Int → Usage) : Prop :=
  ∃ n, ∀ fuel, n ≤ fuel → call fuel = some usage

/-- The steps of a round, with what they do to the usage of the processes. -/
inductive Step : Config → Config → Prop
  | start {s : Processes} {usage : Int → Usage} : Step ⟨s,usage,.idle⟩ ⟨s,usage,.deleting s.mEndedProcesses⟩
  | delete {s s' : Processes} {usage : Int → Usage} {rest : Finset Int} {pid : Int} (member : pid ∈ rest)
    (ran : Returns (fun fuel => Processes.deleteProcess fuel pid s) s') :
      Step ⟨s,usage,.deleting rest⟩ ⟨s',usage,.deleting (rest.erase pid)⟩
  | report {s : Processes} {usage : Int → Usage} (r : Report) :
      Step ⟨s,usage,.deleting ∅⟩ ⟨{ s with mToBeProcessed := r.getAllPids },usage,.processing r []⟩
  | next {s : Processes} {usage : Int → Usage} {r : Report} {pid : Int} (member : pid ∈ s.mToBeProcessed) :
      Step ⟨s,usage,.processing r []⟩ ⟨s.take pid,usage,.processing r [pid]⟩
  | parentFirst {s : Processes} {usage : Int → Usage} {r : Report} {pid : Int} {calls : List Int}
    (member : r.ppid pid ∈ s.mToBeProcessed) :
      Step ⟨s,usage,.processing r (pid :: calls)⟩
        ⟨s.take (r.ppid pid),usage,.processing r (r.ppid pid :: pid :: calls)⟩
  | add {s s' : Processes} {usage usage' : Int → Usage} {r : Report} {pid : Int} {calls : List Int}
    (ready : r.ppid pid ∉ s.mToBeProcessed) (absent : s.mProcesses pid = none)
    (ran : Returns (fun fuel => s.addProcess r.toKernel fuel pid (r.ppid pid)) s')
    (info : Ends (fun fuel => r.updateProcessInfo s' fuel pid (Function.update usage pid .clear)) usage') :
      Step ⟨s,usage,.processing r (pid :: calls)⟩ ⟨s',usage',.processing r calls⟩
  | update {s s' : Processes} {usage usage' : Int → Usage} {r : Report} {pid : Int} {calls : List Int}
    (ready : r.ppid pid ∉ s.mToBeProcessed) (present : (s.mProcesses pid).isSome)
    (ran : Returns (fun fuel => s.updateProcess r.toKernel fuel pid (r.ppid pid)) s')
    (info : Ends (fun fuel => r.updateProcessInfo s' fuel pid usage) usage') :
      Step ⟨s,usage,.processing r (pid :: calls)⟩ ⟨s',usage',.processing r calls⟩
  | finish {s : Processes} {usage : Int → Usage} {r : Report} (done : s.mToBeProcessed = ∅) :
      Step ⟨s,usage,.processing r []⟩ ⟨s.markProcessesAsEnded r.getAllPids,usage,.idle⟩

section
variable {s s' s₀ : Processes} {usage usage' : Int → Usage} {line line' : Int → List Int} {r : Report} {p q pid : Int}
  {calls : List Int} {share : BitVec 32 × BitVec 32}

theorem addUsage_spec (lined : Lined s line) : ∀ {fuel : Nat} {p : Int} {usage : Int → Usage},
    (s.mProcesses p).isSome → addUsage s share fuel p usage = some usage' → ∀ x, x ≠ mFakeProcess →
      (usage' x).own = (usage x).own ∧ (usage' x).total = (usage x).total+if x ∈ line p then share else 0 := by
  intro fuel
  induction fuel with
  | zero => exact fun _ ran => (nomatch ran)
  | succ fuel ih =>
    intro p usage present ran x real
    rw [addUsage] at ran
    split at ran
    · rename_i is_fake
      obtain rfl := some.inj ran
      have off : x ∉ line p := by
        rw [is_fake,lined.line_fake,mem_singleton]
        exact real
      rw [if_neg off,add_zero]
      exact ⟨rfl,rfl⟩
    · rename_i is_real
      simp only [bind_eq_bind] at ran
      obtain ⟨process,found,rest⟩ := bind_eq_some_iff.mp ran
      obtain ⟨own,total⟩ := ih (lined.parent_present p process is_real found) rest x real
      rw [lined.line_up p process is_real found,own,total]
      by_cases here : x = p
      · subst here
        have off := lined.not_mem_parent is_real found
        simp [off]
      · simp [here]

theorem updateProcessInfo_spec (lined : Lined s line) (counts : r.mUsingHistoricalData = true ∨ r.mElapsedTimeMilliSeconds ≠ 0)
    (real : pid ≠ mFakeProcess) {process : Process} (found : s.mProcesses pid = some process) {fuel : Nat}
    (ran : r.updateProcessInfo s fuel pid usage = some usage') : ∃ share, (usage' pid).own = share ∧
      (usage' pid).total = share ∧ ∀ x, x ≠ mFakeProcess → x ≠ pid → (usage' x).own = (usage x).own ∧
        (usage' x).total = (usage x).total+if x ∈ line process.parent then share else 0 := by
  have counted : (r.mUsingHistoricalData || r.mElapsedTimeMilliSeconds ≠ 0) = true := by simpa using counts
  simp only [Report.updateProcessInfo,counted,if_true,found,bind_eq_bind,bind_some] at ran
  generalize read : r.read pid (usage pid) = ps at ran
  have off : pid ∉ line process.parent := lined.not_mem_parent real found
  refine ⟨ps.own,?_⟩
  split at ran
  · have spec := addUsage_spec lined (lined.parent_present pid process real found) ran
    obtain ⟨own,total⟩ := spec pid real
    rw [update_self] at own total
    rw [if_neg off,add_zero] at total
    refine ⟨own,total,fun x is_real other => ?_⟩
    obtain ⟨own,total⟩ := spec x is_real
    rw [update_of_ne other] at own total
    exact ⟨own,total⟩
  · rename_i idle
    obtain rfl := some.inj ran
    have none : ps.own = 0 := by
      simp only [Bool.or_eq_true,decide_eq_true_eq,not_or,not_not] at idle
      exact Prod.ext idle.1 idle.2
    rw [Function.update_self]
    refine ⟨rfl,rfl,fun x is_real other => ?_⟩
    rw [update_of_ne other,none,ite_self,add_zero]
    exact ⟨rfl,rfl⟩

/-- The process has been updated in this round. -/
def Done (r : Report) (s : Processes) (calls : List Int) (p : Int) : Prop :=
  p ∈ r.getAllPids ∧ p ∉ s.mToBeProcessed ∧ p ∉ calls

instance (r : Report) (s : Processes) (calls : List Int) : DecidablePred (Done r s calls) := by
  intro p
  unfold Done
  infer_instance

def parentOf (s : Processes) (p : Int) : Int := ((s.mProcesses p).map (·.parent)).getD mFakeProcess

/-- The totals of the children that have been updated. -/
def childTotals (r : Report) (s : Processes) (usage : Int → Usage) (calls : List Int) (p : Int) :
    BitVec 32 × BitVec 32 :=
  ∑ c ∈ r.getAllPids, if Done r s calls c ∧ parentOf s c = p then (usage c).total else 0

/-- What has been updated is below what has been updated, and its totals are right. -/
structure Balanced (r : Report) (s : Processes) (usage : Int → Usage) (calls : List Int) : Prop where
  present : ∀ p, Done r s calls p → (s.mProcesses p).isSome
  up : ∀ p, Done r s calls p → parentOf s p = mFakeProcess ∨ Done r s calls (parentOf s p)
  totals : ∀ p, Done r s calls p → (usage p).total = (usage p).own+childTotals r s usage calls p

/-- The next process is to be put below itself. -/
def Round (r : Report) (s : Processes) (line : Int → List Int) (calls : List Int) : Prop :=
  ∃ pid rest, calls = pid :: rest ∧ r.ppid pid ∉ s.mToBeProcessed ∧ (s.mProcesses (r.ppid pid)).isSome ∧
    ∃ x ∈ calls, x ∈ line (r.ppid pid)

/-- The processes that are called for, each for the sake of the next one, and the ones that are in the table. -/
structure Called (r : Report) (s₀ s : Processes) (calls : List Int) : Prop where
  toBe : ∀ p ∈ s.mToBeProcessed, p ∈ r.getAllPids ∧ p ∉ calls
  called : ∀ p ∈ calls, p ∈ r.getAllPids
  nodup : calls.Nodup
  chain : calls.IsChain fun p q => r.ppid q = p
  known : ∀ p, (s.mProcesses p).isSome → (s₀.mProcesses p).isSome ∨ p ∈ r.getAllPids

/-- Each reported parent is reported too or is unknown. -/
def ParentsReported (r : Report) (s : Processes) : Prop :=
  ∀ pid ∈ r.getAllPids, r.ppid pid ∈ r.getAllPids ∨ s.parentFor (r.ppid pid) = mFakeProcess

theorem parentOf_eq {process : Process} (found : s.mProcesses p = some process) : parentOf s p = process.parent := by
  rw [parentOf,found]
  rfl

theorem real_of_reported (reported : p ∈ r.getAllPids) : p ≠ mFakeProcess := by
  have le := r.real p reported
  rintro rfl
  exact absurd le (by decide)

theorem Balanced.line_done (balanced : Balanced r s usage calls) (lined : Lined s line)
    (done : p = mFakeProcess ∨ Done r s calls p) : ∀ x ∈ line p, x = mFakeProcess ∨ Done r s calls x := by
  have present : (s.mProcesses p).isSome := by
    rcases done with rfl | done
    · exact lined.fake
    · exact balanced.present p done
  refine lined.up_induction (motive := fun p => p = mFakeProcess ∨ Done r s calls p → ∀ x ∈ line p,
    x = mFakeProcess ∨ Done r s calls x) ?_ ?_ p present done
  · intro _ x member
    rw [lined.line_fake,mem_singleton] at member
    exact .inl member
  · intro p process real found ih done x member
    have is_done := done.resolve_left real
    rw [lined.line_up p process real found] at member
    rcases mem_cons.mp member with rfl | above
    · exact .inr is_done
    · refine ih ?_ x above
      rw [← parentOf_eq found]
      exact balanced.up p is_done

theorem Balanced.share_of_children (balanced : Balanced r s usage calls) (lined : Lined s line) (real : p ≠ mFakeProcess)
    (done : q = mFakeProcess ∨ Done r s calls q) (share : BitVec 32 × BitVec 32) :
    (∑ c ∈ r.getAllPids, if Done r s calls c ∧ parentOf s c = p then (if c ∈ line q then share else 0) else 0)+
      (if q = p then share else 0) = if p ∈ line q then share else 0 := by
  have present : (s.mProcesses q).isSome := by
    rcases done with rfl | done
    · exact lined.fake
    · exact balanced.present q done
  refine lined.up_induction (motive := fun q => q = mFakeProcess ∨ Done r s calls q →
    (∑ c ∈ r.getAllPids, if Done r s calls c ∧ parentOf s c = p then (if c ∈ line q then share else 0) else 0)+
      (if q = p then share else 0) = if p ∈ line q then share else 0) ?_ ?_ q present done
  · intro _
    have nothing : ∀ c ∈ r.getAllPids,
        (if Done r s calls c ∧ parentOf s c = p then (if c ∈ line mFakeProcess then share else 0) else 0) = 0 := by
      intro c reported
      have off : c ∉ line mFakeProcess := by
        rw [lined.line_fake,mem_singleton]
        exact real_of_reported reported
      simp [off]
    rw [Finset.sum_eq_zero nothing,if_neg real.symm,lined.line_fake,
      if_neg (by rw [mem_singleton]; exact real),add_zero]
  · intro q process is_real found ih done
    have is_done := done.resolve_left is_real
    have up := lined.line_up q process is_real found
    have off := lined.not_mem_parent is_real found
    have above := ih (by rw [← parentOf_eq found]; exact balanced.up q is_done)
    have split : ∀ c ∈ r.getAllPids,
        (if Done r s calls c ∧ parentOf s c = p then (if c ∈ line q then share else 0) else 0) =
          (if Done r s calls c ∧ parentOf s c = p then (if c ∈ line process.parent then share else 0) else 0)+
            if c = q then (if process.parent = p then share else 0) else 0 := by
      intro c _
      rw [up]
      by_cases here : c = q
      · subst here
        by_cases child : process.parent = p
        · subst child
          simp [is_done,parentOf_eq found,off]
        · simp [parentOf_eq found,child]
      · simp [here]
    rw [Finset.sum_congr rfl split,Finset.sum_add_distrib,Finset.sum_ite_eq' r.getAllPids q,if_pos is_done.1,above,up]
    by_cases here : p = q
    · subst here
      simp [off]
    · simp [here,Ne.symm here]

theorem not_done : ¬ Done r s (pid :: calls) pid := fun done => done.2.2 (mem_cons_self ..)

theorem Called.done_attach (called : Called r s₀ s (pid :: calls)) (attached : Attached s s' line line' pid q) (p : Int) :
    Done r s' calls p ↔ p = pid ∨ Done r s (pid :: calls) p := by
  have fresh : pid ∉ calls := (nodup_cons.mp called.nodup).1
  have waits : pid ∉ s.mToBeProcessed := fun member => (called.toBe pid member).2 (mem_cons_self ..)
  unfold Done
  rw [attached.toBe,mem_cons,not_or]
  by_cases same : p = pid
  · simp [same,called.called pid (mem_cons_self ..),fresh,waits]
  · simp [same]

theorem parentOf_attach (attached : Attached s s' line line' pid q) (p : Int) :
    parentOf s' p = if p = pid then q else parentOf s p := by
  rw [parentOf,attached.parents]
  split
  · rfl
  · rfl

theorem Called.childTotals_attach (called : Called r s₀ s (pid :: calls)) (attached : Attached s s' line line' pid q)
    (total : (usage' pid).total = share) (others : ∀ x, x ≠ mFakeProcess → x ≠ pid →
      (usage' x).total = (usage x).total+if x ∈ line q then share else 0) (p : Int) :
    childTotals r s' usage' calls p = (if q = p then share else 0)+(childTotals r s usage (pid :: calls) p+
      ∑ c ∈ r.getAllPids, if Done r s (pid :: calls) c ∧ parentOf s c = p then (if c ∈ line q then share else 0)
        else 0) := by
  have reported : pid ∈ r.getAllPids := called.called pid (mem_cons_self ..)
  -- the sum without the process itself, and what it adds
  have rest : ∀ c ∈ r.getAllPids.erase pid, (if Done r s' calls c ∧ parentOf s' c = p then (usage' c).total else 0) =
      (if Done r s (pid :: calls) c ∧ parentOf s c = p then (usage c).total else 0)+
        if Done r s (pid :: calls) c ∧ parentOf s c = p then (if c ∈ line q then share else 0) else 0 := by
    intro c member
    obtain ⟨other,is_reported⟩ := Finset.mem_erase.mp member
    rw [parentOf_attach attached,if_neg other,others c (real_of_reported is_reported) other]
    by_cases child : Done r s (pid :: calls) c ∧ parentOf s c = p
    · rw [if_pos child,if_pos child,if_pos ⟨(called.done_attach attached c).mpr (.inr child.1),child.2⟩]
    · rw [if_neg child,if_neg child,if_neg,add_zero]
      rintro ⟨now,parent⟩
      exact child ⟨((called.done_attach attached c).mp now).resolve_left other,parent⟩
  have whole (f : Int → BitVec 32 × BitVec 32) (zero : f pid = 0) :
      ∑ c ∈ r.getAllPids.erase pid, f c = ∑ c ∈ r.getAllPids, f c := by
    rw [← Finset.add_sum_erase _ f reported,zero,zero_add]
  have zero {x : BitVec 32 × BitVec 32} : (if Done r s (pid :: calls) pid ∧ parentOf s pid = p then x else 0) = 0 :=
    if_neg fun inside => not_done inside.1
  rw [childTotals,← Finset.add_sum_erase _ _ reported,Finset.sum_congr rfl rest,Finset.sum_add_distrib,
    whole _ zero,whole _ zero,parentOf_attach attached,if_pos rfl,total]
  congr 1
  by_cases child : q = p
  · rw [if_pos child,if_pos ⟨(called.done_attach attached pid).mpr (.inl rfl),child⟩]
  · rw [if_neg child,if_neg (fun inside => child inside.2)]

theorem Balanced.no_child (balanced : Balanced r s usage calls) (real : p ≠ mFakeProcess)
    (waits : ¬ Done r s calls p) (f : Int → BitVec 32 × BitVec 32) :
    ∑ c ∈ r.getAllPids, (if Done r s calls c ∧ parentOf s c = p then f c else 0) = 0 := by
  refine Finset.sum_eq_zero fun c _ => if_neg ?_
  rintro ⟨is_done,parent⟩
  rcases balanced.up c is_done with fake | up
  · exact real (parent.symm.trans fake)
  · exact waits (parent ▸ up)

theorem Balanced.attach (balanced : Balanced r s usage (pid :: calls)) (attached : Attached s s' line line' pid q)
    (lined : Lined s line) (called : Called r s₀ s (pid :: calls)) (below : q = mFakeProcess ∨ Done r s (pid :: calls) q)
    (own : (usage' pid).own = share) (total : (usage' pid).total = share)
    (others : ∀ x, x ≠ mFakeProcess → x ≠ pid → (usage' x).own = (usage x).own ∧
      (usage' x).total = (usage x).total+if x ∈ line q then share else 0) : Balanced r s' usage' calls := by
  have real : pid ≠ mFakeProcess := real_of_reported (called.called pid (mem_cons_self ..))
  have apart {p : Int} (done : Done r s (pid :: calls) p) : p ≠ pid := by
    rintro rfl
    exact not_done done
  refine ⟨?_,?_,?_⟩
  · intro p done
    rcases (called.done_attach attached p).mp done with rfl | before
    · obtain ⟨process,found,_⟩ := attached.found
      rw [found]
      rfl
    · rw [attached.isSome (apart before)]
      exact balanced.present p before
  · intro p done
    rw [parentOf_attach attached,called.done_attach attached]
    rcases (called.done_attach attached p).mp done with rfl | before
    · rw [if_pos rfl]
      exact below.imp_right .inr
    · rw [if_neg (apart before)]
      exact (balanced.up p before).imp_right .inr
  · intro p done
    have sum := called.childTotals_attach attached total (fun x is_real other => (others x is_real other).2) p
    rcases (called.done_attach attached p).mp done with rfl | before
    · have leaf : q ≠ p := by
        rintro rfl
        exact attached.apart (lined.self_mem attached.there)
      have none := balanced.no_child real not_done
      rw [sum,none,childTotals,none,if_neg leaf,own,total,add_zero,add_zero,add_zero]
    · obtain ⟨same,more⟩ := others p (real_of_reported before.1) (apart before)
      rw [sum,same,more,balanced.totals p before,
        ← balanced.share_of_children lined (real_of_reported before.1) below share]
      abel

/-- The reported parents do not lead round. -/
def Acyclic (r : Report) : Prop :=
  ∃ rank : Int → Nat, ∀ p ∈ r.getAllPids, r.ppid p ∈ r.getAllPids → rank (r.ppid p) < rank p

/-- What holds while the processes are gone through. -/
structure Going (r : Report) (s₀ s : Processes) (usage : Int → Usage) (calls : List Int) (line : Int → List Int) :
    Prop where
  lined : Lined s line
  called : Called r s₀ s calls
  right : Balanced r s usage calls ∨ ¬ Acyclic r ∧ Round r s line calls

theorem Called.take (called : Called r s₀ s calls) (member : p ∈ s.mToBeProcessed)
    (chain : ∀ q ∈ calls.head?, r.ppid q = p) : Called r s₀ (s.take p) (p :: calls) := by
  refine ⟨fun q inside => ?_,fun q inside => ?_,?_,?_,called.known⟩
  · obtain ⟨other,waits⟩ := Finset.mem_erase.mp inside
    obtain ⟨reported,free⟩ := called.toBe q waits
    refine ⟨reported,?_⟩
    rw [mem_cons,not_or]
    exact ⟨other,free⟩
  · rcases mem_cons.mp inside with rfl | before
    · exact (called.toBe q member).1
    · exact called.called q before
  · exact nodup_cons.mpr ⟨(called.toBe p member).2,called.nodup⟩
  · exact isChain_cons.mpr ⟨chain,called.chain⟩

theorem done_take (member : p ∈ s.mToBeProcessed) (x : Int) : Done r (s.take p) (p :: calls) x ↔ Done r s calls x := by
  simp only [Done,Processes.take,Finset.mem_erase,mem_cons,not_or,not_and]
  by_cases same : x = p
  · subst same
    simp [member]
  · simp [same]

theorem Balanced.take (balanced : Balanced r s usage calls) (member : p ∈ s.mToBeProcessed) :
    Balanced r (s.take p) usage (p :: calls) := by
  refine ⟨fun x done => ?_,fun x done => ?_,fun x done => ?_⟩
  · exact balanced.present x ((done_take member x).mp done)
  · rw [done_take member]
    exact balanced.up x ((done_take member x).mp done)
  · rw [balanced.totals x ((done_take member x).mp done)]
    refine congrArg _ (Finset.sum_congr rfl fun c _ => ?_)
    simp only [done_take member]
    rfl

theorem Called.attach (called : Called r s₀ s (pid :: calls)) (attached : Attached s s' line line' pid q) :
    Called r s₀ s' calls := by
  refine ⟨fun p inside => ?_,fun p inside => called.called p (mem_cons_of_mem _ inside),
    (nodup_cons.mp called.nodup).2,called.chain.tail,fun p present => ?_⟩
  · obtain ⟨reported,free⟩ := called.toBe p (attached.toBe ▸ inside)
    exact ⟨reported,fun member => free (mem_cons_of_mem _ member)⟩
  · by_cases same : p = pid
    · subst same
      exact .inr (called.called p (mem_cons_self ..))
    · rw [attached.isSome same] at present
      exact called.known p present

theorem Called.round (called : Called r s₀ s (pid :: calls)) (attached : Attached s s' line line' pid q) {x : Int}
    (waits : x ∈ calls) (above : x ∈ line q) : Round r s' line' calls := by
  cases calls with
  | nil => cases waits
  | cons next rest =>
    have same : r.ppid next = pid := (isChain_cons_cons.mp called.chain).1
    have present : (s'.mProcesses pid).isSome := by
      obtain ⟨process,found,_⟩ := attached.found
      rw [found]
      rfl
    refine ⟨next,rest,rfl,?_,?_,x,waits,?_⟩
    · rw [same,attached.toBe]
      exact fun member => (called.toBe pid member).2 (mem_cons_self ..)
    · rw [same]
      exact present
    · rw [same,attached.own]
      exact mem_cons_of_mem _ above

theorem Called.not_acyclic (called : Called r s₀ s (pid :: calls)) (waits : r.ppid pid ∈ calls) : ¬ Acyclic r := by
  rintro ⟨rank,less⟩
  have ranks : (pid :: calls).Pairwise fun p q => rank p < rank q := by
    have chain : (pid :: calls).IsChain fun p q => rank p < rank q := by
      refine called.chain.imp_of_mem_imp ?_
      intro p q first second same
      rw [← same]
      exact less q (called.called q second) (same ▸ called.called p first)
    exact isChain_iff_pairwise.mp chain
  have above := (pairwise_cons.mp ranks).1 _ waits
  have below := less pid (called.called pid (mem_cons_self ..))
    (called.called _ (mem_cons_of_mem _ waits))
  omega

theorem parentFor_present {ppid : Int} (present : (s.mProcesses ppid).isSome) : s.parentFor ppid = ppid := if_pos present

theorem parentFor_absent {ppid : Int} (absent : ¬ (s.mProcesses ppid).isSome) : s.parentFor ppid = mFakeProcess :=
  if_neg absent

theorem Going.parent (going : Going r s₀ s usage (pid :: calls) line) (parents : ParentsReported r s₀)
    (ready : r.ppid pid ∉ s.mToBeProcessed) : (s.parentFor (r.ppid pid) = mFakeProcess ∨
      Done r s (pid :: calls) (s.parentFor (r.ppid pid))) ∨
        (s.parentFor (r.ppid pid) = r.ppid pid ∧ r.ppid pid ∈ calls) := by
  have reported : pid ∈ r.getAllPids := going.called.called pid (mem_cons_self ..)
  by_cases present : (s.mProcesses (r.ppid pid)).isSome
  · rw [parentFor_present present]
    by_cases fake : r.ppid pid = mFakeProcess
    · exact .inl (.inl fake)
    have is_reported : r.ppid pid ∈ r.getAllPids := by
      rcases parents pid reported with is_reported | unknown
      · exact is_reported
      · rcases going.called.known _ present with before | is_reported
        · rw [parentFor_present before] at unknown
          exact absurd unknown fake
        · exact is_reported
    by_cases waits : r.ppid pid ∈ calls
    · exact .inr ⟨rfl,waits⟩
    · refine .inl (.inr ⟨is_reported,ready,?_⟩)
      rw [mem_cons,not_or]
      exact ⟨ppid_ne r.toKernel (real_of_reported reported),waits⟩
  · exact .inl (.inl (parentFor_absent present))

theorem Going.attach (going : Going r s₀ s usage (pid :: calls) line) (parents : ParentsReported r s₀)
    (ready : r.ppid pid ∉ s.mToBeProcessed)
    (attached : Attached s s' line line' pid (s.parentFor (r.ppid pid))) (own : (usage' pid).own = share)
    (total : (usage' pid).total = share) (others : ∀ x, x ≠ mFakeProcess → x ≠ pid → (usage' x).own = (usage x).own ∧
      (usage' x).total = (usage x).total+if x ∈ line (s.parentFor (r.ppid pid)) then share else 0) :
    Going r s₀ s' usage' calls line' := by
  refine ⟨attached.lined,going.called.attach attached,?_⟩
  rcases going.right with balanced | ⟨round,top,rest,same,_,present,x,member,above⟩
  · rcases going.parent parents ready with below | ⟨eq,waits⟩
    · exact .inl (balanced.attach attached going.lined going.called below own total others)
    · refine .inr ⟨going.called.not_acyclic waits,going.called.round attached waits ?_⟩
      rw [eq] at attached ⊢
      exact going.lined.self_mem attached.there
  · obtain ⟨rfl,rfl⟩ := cons.inj same
    have eq := parentFor_present present
    rw [← eq] at above
    refine .inr ⟨round,going.called.round attached ?_ above⟩
    rcases mem_cons.mp member with rfl | waits
    · exact absurd above attached.apart
    · exact waits

theorem Going.counted (going : Going r s₀ s usage (pid :: calls) line) (parents : ParentsReported r s₀)
    (counts : r.mUsingHistoricalData = true ∨ r.mElapsedTimeMilliSeconds ≠ 0) (ready : r.ppid pid ∉ s.mToBeProcessed)
    (attached : Attached s s' line line' pid (s.parentFor (r.ppid pid))) {before : Int → Usage}
    (same : ∀ x, x ≠ pid → before x = usage x) (info : Ends (fun fuel => r.updateProcessInfo s' fuel pid before) usage') :
    Going r s₀ s' usage' calls line' := by
  have real : pid ≠ mFakeProcess := real_of_reported (going.called.called pid (mem_cons_self ..))
  obtain ⟨n,info⟩ := info
  obtain ⟨process,found,eq⟩ := attached.found
  obtain ⟨share,own,total,others⟩ := updateProcessInfo_spec attached.lined counts real found (info n (Nat.le_refl _))
  rw [eq,attached.kept _ attached.there attached.apart] at others
  refine going.attach parents ready attached own total ?_
  intro x is_real other
  rw [← same x other]
  exact others x is_real other

/-- The total of each reported process is its own usage and the totals of its reported children. -/
def TotalsRight (r : Report) (c : Config) : Prop :=
  ∀ p ∈ r.getAllPids, (c.usage p).total =
    (c.usage p).own+∑ q ∈ r.getAllPids with parentOf c.table q = p, (c.usage q).total

theorem Going.over (going : Going r s₀ s usage [] line) (done : s.mToBeProcessed = ∅) :
    TotalsRight r ⟨s.markProcessesAsEnded r.getAllPids,usage,.idle⟩ := by
  have balanced : Balanced r s usage [] := by
    rcases going.right with balanced | ⟨_,_,_,impossible,_⟩
    · exact balanced
    · cases impossible
  have all (p : Int) (reported : p ∈ r.getAllPids) : Done r s [] p := by
    refine ⟨reported,?_,not_mem_nil⟩
    rw [done]
    exact Finset.notMem_empty p
  have parent (p : Int) : parentOf (s.markProcessesAsEnded r.getAllPids) p = parentOf s p := by
    simp only [parentOf,Processes.markProcessesAsEnded,Option.map_map]
    congr 2
    funext process
    simp only [Function.comp_apply]
    split
    · rfl
    · rfl
  intro p reported
  rw [balanced.totals p (all p reported),childTotals,Finset.sum_filter]
  refine congrArg _ (Finset.sum_congr rfl fun c is_reported => ?_)
  rw [parent]
  simp [all c is_reported]

theorem step_going {c c' : Config} (counts : r.mUsingHistoricalData = true ∨ r.mElapsedTimeMilliSeconds ≠ 0)
    (parents : ParentsReported r s₀) (going : ∃ calls line, c.phase = .processing r calls ∧
      Going r s₀ c.table c.usage calls line) (step : Step c c') :
    (∃ calls line, c'.phase = .processing r calls ∧ Going r s₀ c'.table c'.usage calls line) ∨
      (c'.phase = .idle ∧ TotalsRight r c') := by
  obtain ⟨calls,line,phase,going⟩ := going
  cases step with
  | start => cases phase
  | delete => cases phase
  | report => cases phase
  | next member =>
    cases phase
    refine .inl ⟨_,line,rfl,⟨going.lined.of_parents fun _ => rfl,going.called.take member nofun,?_⟩⟩
    rcases going.right with balanced | ⟨_,_,_,impossible,_⟩
    · exact .inl (balanced.take member)
    · cases impossible
  | parentFirst member =>
    cases phase
    refine .inl ⟨_,line,rfl,⟨going.lined.of_parents fun _ => rfl,going.called.take member ?_,?_⟩⟩
    · intro q is_head
      cases is_head
      rfl
    · rcases going.right with balanced | ⟨_,top,rest,same,ready,_⟩
      · exact .inl (balanced.take member)
      · obtain ⟨rfl,rfl⟩ := cons.inj same
        exact absurd member ready
  | add ready absent ran info =>
    cases phase
    have real := real_of_reported (going.called.called _ (mem_cons_self ..))
    obtain ⟨n,ran⟩ := ran
    obtain ⟨line',attached⟩ := going.lined.attached_add real absent (ran n (Nat.le_refl _))
    exact .inl ⟨_,line',rfl,going.counted parents counts ready attached (fun x other => update_of_ne other ..) info⟩
  | update ready present ran info =>
    cases phase
    have real := real_of_reported (going.called.called _ (mem_cons_self ..))
    obtain ⟨n,ran⟩ := ran
    obtain ⟨line',attached⟩ := going.lined.attached_update real present (ran n (Nat.le_refl _))
    exact .inl ⟨_,line',rfl,going.counted parents counts ready attached (fun x _ => rfl) info⟩
  | finish done =>
    cases phase
    exact .inr ⟨rfl,going.over done⟩

theorem addUsage_more : ∀ {fuel : Nat} {p : Int} {usage usage' : Int → Usage},
    addUsage s share fuel p usage = some usage' → ∀ {more : Nat}, fuel ≤ more →
      addUsage s share more p usage = some usage' := by
  intro fuel
  induction fuel with
  | zero => exact fun ran => (nomatch ran)
  | succ fuel ih =>
    intro p usage usage' ran more le
    obtain ⟨more,rfl⟩ := Nat.exists_eq_add_of_le' (Nat.one_le_of_lt le)
    rw [addUsage] at ran ⊢
    split at ran
    · rename_i fake
      rwa [if_pos fake]
    · rename_i real
      simp only [bind_eq_bind] at ran ⊢
      obtain ⟨process,found,rest⟩ := bind_eq_some_iff.mp ran
      rw [if_neg real,found,bind_some]
      exact ih rest (Nat.le_of_succ_le_succ le)

theorem Ends.of_updateProcessInfo {fuel : Nat} (ran : r.updateProcessInfo s fuel pid usage = some usage') :
    Ends (fun fuel => r.updateProcessInfo s fuel pid usage) usage' := by
  refine ⟨fuel,fun more le => ?_⟩
  simp only [Report.updateProcessInfo,bind_eq_bind] at ran ⊢
  split at ran
  · rename_i counts
    rw [if_pos counts]
    split at ran
    · rename_i busy
      obtain ⟨process,found,rest⟩ := bind_eq_some_iff.mp ran
      rw [if_pos busy,found,bind_some]
      exact addUsage_more rest le
    · rename_i idle
      rwa [if_neg idle]
  · rename_i counts
    rwa [if_neg counts]

theorem exists_addUsage (lined : Lined s line) (share : BitVec 32 × BitVec 32) (present : (s.mProcesses p).isSome) :
    ∀ usage, ∃ fuel usage', addUsage s share fuel p usage = some usage' := by
  refine lined.up_induction (motive := fun p => ∀ usage, ∃ fuel usage', addUsage s share fuel p usage = some usage')
    ?_ ?_ p present
  · intro usage
    exact ⟨1,usage,rfl⟩
  · intro p process real found ih usage
    obtain ⟨fuel,usage',ran⟩ := ih (update usage p ((usage p).add share))
    refine ⟨fuel+1,usage',?_⟩
    rw [addUsage,if_neg real,found]
    exact ran

theorem exists_updateProcessInfo (lined : Lined s line) (real : pid ≠ mFakeProcess) {process : Process}
    (found : s.mProcesses pid = some process) (r : Report) (usage : Int → Usage) :
    ∃ usage', Ends (fun fuel => r.updateProcessInfo s fuel pid usage) usage' := by
  suffices ran : ∃ fuel usage', r.updateProcessInfo s fuel pid usage = some usage' by
    obtain ⟨fuel,usage',ran⟩ := ran
    exact ⟨usage',.of_updateProcessInfo ran⟩
  simp only [Report.updateProcessInfo,found,bind_eq_bind,bind_some]
  split
  · split
    · exact exists_addUsage lined _ (lined.parent_present pid process real found) _
    · exact ⟨0,_,rfl⟩
  · exact ⟨0,_,rfl⟩

/-- What is reached from the empty table, whatever has been reported. -/
inductive Reached : Config → Prop
  | empty : Reached ⟨.empty,fun _ => .clear,.idle⟩
  | step {c c' : Config} (reached : Reached c) (step : Step c c') : Reached c'

/-- No pid that is waited for is the one of the process that is not real. -/
def Real (s : Processes) : Phase → Prop
  | .idle => ∀ p ∈ s.mEndedProcesses, p ≠ mFakeProcess
  | .deleting rest => ∀ p ∈ rest, p ≠ mFakeProcess
  | .processing r calls => (∀ p ∈ s.mToBeProcessed, p ∈ r.getAllPids) ∧ ∀ p ∈ calls, p ∈ r.getAllPids

/-- What holds after every step. -/
structure Sound (c : Config) : Prop where
  tree : ∃ line, Tree c.table line
  last : ∀ p ∈ c.table.mProcessedLastTime, p ≠ mFakeProcess
  real : Real c.table c.phase

theorem step_sound {c c' : Config} (sound : Sound c) (step : Step c c') : Sound c' := by
  obtain ⟨⟨line,tree⟩,last,real⟩ := sound
  cases step with
  | start => exact ⟨⟨line,tree⟩,last,real⟩
  | delete member ran =>
    obtain ⟨less,before⟩ := tree.deleteProcess (real _ member) ran
    exact ⟨⟨line,less⟩,fun p inside => last p (before p inside),fun p inside => real p (Finset.mem_of_mem_erase inside)⟩
  | report r => exact ⟨⟨line,tree.sets rfl rfl⟩,last,fun _ inside => inside,fun _ inside => (nomatch inside)⟩
  | next member =>
    refine ⟨⟨line,tree.sets rfl rfl⟩,fun p inside => last p (Finset.mem_of_mem_erase inside),
      fun p inside => real.1 p (Finset.mem_of_mem_erase inside),fun p inside => ?_⟩
    rw [mem_singleton.mp inside]
    exact real.1 _ member
  | parentFirst member =>
    refine ⟨⟨line,tree.sets rfl rfl⟩,fun p inside => last p (Finset.mem_of_mem_erase inside),
      fun p inside => real.1 p (Finset.mem_of_mem_erase inside),fun p inside => ?_⟩
    rcases mem_cons.mp inside with rfl | before
    · exact real.1 _ member
    · exact real.2 p before
  | add ready absent ran info =>
    have is_real := real_of_reported (real.2 _ (mem_cons_self ..))
    obtain ⟨more,same⟩ := tree.addProcess is_real absent ran
    obtain ⟨n,ran⟩ := ran
    obtain ⟨_,attached⟩ := tree.attached_add is_real absent (ran n (Nat.le_refl _))
    refine ⟨more,fun p inside => last p (same ▸ inside),fun p inside => real.1 p (attached.toBe ▸ inside),
      fun p inside => real.2 p (mem_cons_of_mem _ inside)⟩
  | update ready present ran info =>
    have is_real := real_of_reported (real.2 _ (mem_cons_self ..))
    obtain ⟨n,ran⟩ := ran
    obtain ⟨line',attached⟩ := tree.attached_update is_real present (ran n (Nat.le_refl _))
    obtain ⟨moved,same⟩ := tree.updateProcess is_real present attached (ran n (Nat.le_refl _))
    refine ⟨⟨line',moved⟩,fun p inside => last p (same ▸ inside),fun p inside => real.1 p (attached.toBe ▸ inside),
      fun p inside => real.2 p (mem_cons_of_mem _ inside)⟩
  | @finish s usage r done =>
    exact ⟨⟨line,tree.marked _⟩,fun p inside => real_of_reported inside,last⟩

theorem Reached.sound {c : Config} (reached : Reached c) : Sound c := by
  induction reached with
  | empty => exact ⟨⟨_,empty_table.tree⟩,fun _ inside => absurd inside (Finset.notMem_empty _),
      fun _ inside => absurd inside (Finset.notMem_empty _)⟩
  | step _ step ih => exact step_sound ih step

/-- How much of a round is left. -/
def left (c : Config) : Nat :=
  match c.phase with
  | .processing _ calls => 2*c.table.mToBeProcessed.card+calls.length+1
  | _ => 0

/-- A step of a round that is not its last one. -/
def Within (c c' : Config) : Prop := Step c c' ∧ c'.phase ≠ .idle

theorem left_lt {c c' : Config} (sound : Sound c) (busy : ∃ calls, c.phase = .processing r calls) (step : Step c c') :
    left c' < left c := by
  obtain ⟨calls,phase⟩ := busy
  obtain ⟨⟨line,tree⟩,last,real⟩ := sound
  cases step with
  | start => cases phase
  | delete => cases phase
  | report => cases phase
  | next member =>
    have less := Finset.card_erase_lt_of_mem member
    simp only [left,Processes.take,length_cons,length_nil]
    omega
  | parentFirst member =>
    have less := Finset.card_erase_lt_of_mem member
    simp only [left,Processes.take,length_cons]
    omega
  | add ready absent ran info =>
    obtain ⟨n,ran⟩ := ran
    obtain ⟨_,attached⟩ := tree.attached_add (real_of_reported (real.2 _ (mem_cons_self ..))) absent
      (ran n (Nat.le_refl _))
    simp only [left,attached.toBe,length_cons]
    omega
  | update ready present ran info =>
    obtain ⟨n,ran⟩ := ran
    obtain ⟨_,attached⟩ := tree.attached_update (real_of_reported (real.2 _ (mem_cons_self ..))) present
      (ran n (Nat.le_refl _))
    simp only [left,attached.toBe,length_cons]
    omega
  | finish done =>
    simp only [left]
    omega

theorem exists_step (tree : Tree s line') (going : Going r s₀ s usage calls line)
    (parents : ParentsReported r s₀) (acyclic : Acyclic r) : ∃ c', Step ⟨s,usage,.processing r calls⟩ c' := by
  cases calls with
  | nil =>
    rcases s.mToBeProcessed.eq_empty_or_nonempty with done | ⟨pid,member⟩
    · exact ⟨_,.finish done⟩
    · exact ⟨_,.next member⟩
  | cons pid calls =>
    by_cases ready : r.ppid pid ∈ s.mToBeProcessed
    · exact ⟨_,.parentFirst ready⟩
    have real := real_of_reported (going.called.called pid (mem_cons_self ..))
    cases found : s.mProcesses pid with
    | none =>
      obtain ⟨s',n,ran⟩ := tree.returns_addProcess r.toKernel real found (r.ppid pid)
      obtain ⟨_,attached⟩ := tree.attached_add real found (ran n (Nat.le_refl _))
      obtain ⟨process,is,_⟩ := attached.found
      obtain ⟨usage',info⟩ := exists_updateProcessInfo attached.lined real is r (update usage pid .clear)
      exact ⟨_,.add ready found ⟨n,ran⟩ info⟩
    | some process =>
      have present : (s.mProcesses pid).isSome := by
        rw [found]
        rfl
      have balanced : Balanced r s usage (pid :: calls) := by
        rcases going.right with balanced | ⟨round,_⟩
        · exact balanced
        · exact absurd acyclic round
      have apart : pid ∉ line (s.parentFor (r.ppid pid)) := by
        intro member
        rcases going.parent parents ready with below | ⟨_,waits⟩
        · rcases balanced.line_done going.lined below pid member with fake | done
          · exact real fake
          · exact done.2.2 (mem_cons_self ..)
        · exact going.called.not_acyclic waits acyclic
      obtain ⟨s',n,ran⟩ := going.lined.returns_updateProcess r.toKernel real present apart
      obtain ⟨_,attached⟩ := going.lined.attached_update real present (ran n (Nat.le_refl _))
      obtain ⟨now,is,_⟩ := attached.found
      obtain ⟨usage',info⟩ := exists_updateProcessInfo attached.lined real is r usage
      exact ⟨_,.update ready present ⟨n,ran⟩ info⟩

theorem run_going {c c' : Config} (counts : r.mUsingHistoricalData = true ∨ r.mElapsedTimeMilliSeconds ≠ 0)
    (parents : ParentsReported r s₀) (sound : Sound c) (going : ∃ calls line, c.phase = .processing r calls ∧
      Going r s₀ c.table c.usage calls line) (run : Relation.ReflTransGen Within c c') :
    Sound c' ∧ ∃ calls line, c'.phase = .processing r calls ∧ Going r s₀ c'.table c'.usage calls line := by
  induction run with
  | refl => exact ⟨sound,going⟩
  | tail _ step ih =>
    obtain ⟨sound,going⟩ := ih
    refine ⟨step_sound sound step.1,?_⟩
    rcases step_going counts parents going step.1 with going | ⟨idle,_⟩
    · exact going
    · exact absurd idle step.2

/-- In a round with a time that has passed the totals are right in the end, whatever the order in which the pids are
gone through, and the round comes to its end if the parents do not lead round. -/
theorem totals_right {c : Config} (reached : Reached ⟨s,usage,.deleting ∅⟩)
    (counts : r.mUsingHistoricalData = true ∨ r.mElapsedTimeMilliSeconds ≠ 0) (parents : ParentsReported r s)
    (run : Relation.ReflTransGen Within ⟨{ s with mToBeProcessed := r.getAllPids },usage,.processing r []⟩ c) :
    (∀ c', Step c c' → c'.phase = .idle → TotalsRight r c') ∧ (∀ c', Step c c' → left c' < left c) ∧
      (Acyclic r → ∃ c', Step c c') := by
  have begun := (Reached.step reached (.report r)).sound
  obtain ⟨line,tree⟩ := begun.tree
  have nothing (p : Int) : ¬ Done r { s with mToBeProcessed := r.getAllPids } [] p := fun done => done.2.1 done.1
  have start : Going r s { s with mToBeProcessed := r.getAllPids } usage [] line := by
    refine ⟨tree.toLined,⟨fun p inside => ⟨inside,not_mem_nil⟩,nofun,nodup_nil,isChain_nil,
      fun p present => .inl present⟩,.inl ⟨?_,?_,?_⟩⟩
    · exact fun p done => absurd done (nothing p)
    · exact fun p done => absurd done (nothing p)
    · exact fun p done => absurd done (nothing p)
  obtain ⟨sound,going⟩ := run_going counts parents begun ⟨[],line,rfl,start⟩ run
  refine ⟨fun c' step idle => ?_,fun c' step => ?_,fun acyclic => ?_⟩
  · rcases step_going counts parents going step with ⟨_,_,busy,_⟩ | ⟨_,right⟩
    · rw [idle] at busy
      cases busy
    · exact right
  · obtain ⟨calls,_,phase,_⟩ := going
    exact left_lt sound ⟨calls,phase⟩ step
  · obtain ⟨calls,line,phase,going⟩ := going
    obtain ⟨_,tree⟩ := sound.tree
    obtain ⟨s',usage',phase'⟩ := c
    cases phase
    exact exists_step tree going parents acyclic

end

/-- Two processes, the second below the first. -/
def two : Report where
  getAllPids := {1,2}
  real := by decide
  getParentPid pid := if pid = 2 then 1 else 0
  status _ := .Running
  mUsingHistoricalData := false
  mElapsedTimeMilliSeconds := 1000
  userTime pid := 10*pid
  sysTime pid := pid
  elapsed _ := 0
  userUsage _ := 0
  sysUsage _ := 0
  percent time elapsed := BitVec.ofInt 32 (time*1000/elapsed)

/-- The table and the usage when a process has been added. -/
def afterAdding (r : Report) (pid : Int) (c : Processes × (Int → Usage)) : Processes × (Int → Usage) :=
  let s' := processed c.1 r.toKernel pid
  (s',(r.updateProcessInfo s' 5 pid (Function.update c.2 pid .clear)).getD c.2)

theorem adding_within (r : Report) (pid : Int) (c : Processes × (Int → Usage)) (member : pid ∈ c.1.mToBeProcessed)
    (ready : r.ppid pid ∉ (c.1.take pid).mToBeProcessed) (absent : (c.1.take pid).mProcesses pid = none)
    (added : ((c.1.take pid).addProcess r.toKernel 5 pid (r.ppid pid)).isSome)
    (info : (r.updateProcessInfo (processed c.1 r.toKernel pid) 5 pid (Function.update c.2 pid .clear)).isSome) :
    Relation.ReflTransGen Within ⟨c.1,c.2,.processing r []⟩
      ⟨(afterAdding r pid c).1,(afterAdding r pid c).2,.processing r []⟩ := by
  obtain ⟨s',ran⟩ := isSome_iff_exists.mp added
  obtain ⟨usage',counted⟩ := isSome_iff_exists.mp info
  have table : processed c.1 r.toKernel pid = s' := by
    rw [processed,if_pos absent,ran]
    rfl
  rw [afterAdding,counted]
  rw [table] at counted ⊢
  refine .head ⟨.next member,by simp⟩ (.single ⟨?_,by simp⟩)
  exact .add ready absent (.of_addProcess ran) (.of_updateProcessInfo counted)

def begun : Processes × (Int → Usage) := ({ Processes.empty with mToBeProcessed := {1,2} },fun _ => .clear)

theorem two_totals : ∃ c', TotalsRight two c' ∧ (c'.usage 1).total = (30,3) := by
  have reached : Reached ⟨.empty,fun _ => .clear,.deleting ∅⟩ := .step .empty .start
  have first := adding_within two 1 begun (by decide) (by decide) (by decide) (by decide) (by decide)
  have second := adding_within two 2 (afterAdding two 1 begun) (by decide) (by decide) (by decide) (by decide)
    (by decide)
  have parents : ParentsReported two .empty := by
    unfold ParentsReported
    decide
  have right := totals_right reached (.inr (by decide)) parents (first.trans second)
  exact ⟨_,right.1 _ (.finish (by decide)) rfl,by decide⟩

end KdeWorkspace.ProcessTotals
