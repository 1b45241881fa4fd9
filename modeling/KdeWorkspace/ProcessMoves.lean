import KdeWorkspace.Loops
import KdeWorkspace.ProcessRounds

/-!
What the calls of a round do to the parents of the processes, whatever the counts of the processes are.

A process may be moved with all that is below it. The call does not come back if the new parent is below the process
(`updateProcess_spec`), so the lines of parents stay right in every round that goes on.
-/
namespace KdeWorkspace.ProcessTable
open Option Function

/-- A process without its count. -/
def Process.uncounted (process : Process) : Process := { process with numChildren := 0 }

/-- The tables differ in the counts only. -/
structure Same (s t : Processes) : Prop where
  processes : ∀ p, (s.mProcesses p).map Process.uncounted = (t.mProcesses p).map Process.uncounted
  list : s.mListProcesses = t.mListProcesses
  toBe : s.mToBeProcessed = t.mToBeProcessed
  last : s.mProcessedLastTime = t.mProcessedLastTime
  ended : s.mEndedProcesses = t.mEndedProcesses

namespace Same
variable {s t u : Processes} {p : Int}

theorem symm (same : Same s t) : Same t s :=
  ⟨fun p => (same.processes p).symm,same.list.symm,same.toBe.symm,same.last.symm,same.ended.symm⟩

theorem trans (same : Same s t) (same' : Same t u) : Same s u :=
  ⟨fun p => (same.processes p).trans (same'.processes p),same.list.trans same'.list,same.toBe.trans same'.toBe,
    same.last.trans same'.last,same.ended.trans same'.ended⟩

theorem fields {β : Type} (same : Same s t) (f : Process → β) (uncounted : ∀ process, f process.uncounted = f process)
    (p : Int) : (s.mProcesses p).map f = (t.mProcesses p).map f := by
  have eq := congrArg (Option.map f) (same.processes p)
  simpa only [Option.map_map,Function.comp_def,uncounted] using eq

theorem parents (same : Same s t) (p : Int) : (s.mProcesses p).map (·.parent) = (t.mProcesses p).map (·.parent) :=
  same.fields (·.parent) (fun _ => rfl) p

theorem isSome (same : Same s t) (p : Int) : (s.mProcesses p).isSome = (t.mProcesses p).isSome := by
  have eq := congrArg Option.isSome (same.processes p)
  simpa using eq

theorem found (same : Same s t) {process : Process} (found : s.mProcesses p = some process) :
    ∃ other, t.mProcesses p = some other ∧ other.uncounted = process.uncounted := by
  have eq := same.processes p
  rw [found,map_some] at eq
  exact map_eq_some_iff.mp eq.symm

theorem modify (same : Same s t) (p : Int) (f : Process → Process)
    (commutes : ∀ process, (f process).uncounted = (f process.uncounted).uncounted) :
    Same (s.modify p f) (t.modify p f) := by
  refine ⟨fun q => ?_,same.list,same.toBe,same.last,same.ended⟩
  rw [Processes.modify_apply,Processes.modify_apply]
  split
  · rw [map_map,map_map]
    exact same.fields (Process.uncounted ∘ f) (fun process => (commutes process).symm) q
  · exact same.processes q

theorem counted (s : Processes) (delta p : Int) :
    Same (s.modify p fun process => { process with numChildren := process.numChildren+delta }) s := by
  refine ⟨fun q => ?_,rfl,rfl,rfl,rfl⟩
  rw [Processes.modify_apply]
  split
  · rw [map_map]
    rfl
  · rfl

end Same

section
variable {s s' t : Processes} {line : Int → List Int} {k : Kernel} {p q pid ppid : Int} {fuel : Nat}

theorem modify_parents (s : Processes) (q p : Int) {f : Process → Process}
    (keeps : ∀ process, (f process).parent = process.parent) :
    ((s.modify q f).mProcesses p).map (·.parent) = (s.mProcesses p).map (·.parent) := by
  rw [Processes.modify_apply]
  split
  · rw [Option.map_map]
    exact congrArg (Option.map · _) (funext keeps)
  · rfl

theorem count_same {delta : Int} : ∀ {fuel : Nat} {p : Int} {s s' : Processes},
    Processes.count delta fuel p s = some s' → Same s' s := by
  intro fuel
  induction fuel with
  | zero => exact fun ran => (nomatch ran)
  | succ fuel ih =>
    intro p s s' ran
    simp only [Processes.count,bind_eq_bind] at ran
    obtain ⟨process,found,rest⟩ := bind_eq_some_iff.mp ran
    split at rest
    · obtain rfl := some.inj rest
      exact .counted s delta p
    · exact (ih rest).trans (.counted s delta p)

theorem count_round {delta : Int} (round : Int → Prop) (real : ¬ round mFakeProcess) :
    ∀ {fuel : Nat} {p : Int} {s : Processes}, (∀ p process, round p → s.mProcesses p = some process →
      round process.parent) → round p → Processes.count delta fuel p s = none := by
  intro fuel
  induction fuel with
  | zero => exact fun _ _ => rfl
  | succ fuel ih =>
    intro p s up inside
    simp only [Processes.count,bind_eq_bind]
    cases found : s.mProcesses p with
    | none => rfl
    | some process =>
      have other : p ≠ mFakeProcess := by
        rintro rfl
        exact real inside
      rw [bind_some,if_neg other]
      refine ih ?_ (up p process inside found)
      intro r now inside is_now
      have parents := (Same.counted s delta p).parents r
      rw [is_now,map_some] at parents
      obtain ⟨was,before,parent⟩ := map_eq_some_iff.mp parents.symm
      rw [← parent]
      exact up r was inside before

/-- The line when a process has been put below another one with all that is below it. -/
def reline (line : Int → List Int) (pid q p : Int) : List Int :=
  if pid ∈ line p then (line p).takeWhile (· ≠ pid)++pid :: line q else line p

theorem reline_of_not_mem {line : Int → List Int} (other : pid ∉ line p) : reline line pid q p = line p := if_neg other

namespace Lined

theorem reattach (lined : Lined s line) (real : pid ≠ mFakeProcess) (present : (s.mProcesses pid).isSome)
    (there : (s.mProcesses q).isSome) (apart : pid ∉ line q)
    (parents : ∀ p, (t.mProcesses p).map (·.parent) = if p = pid then some q else (s.mProcesses p).map (·.parent)) :
    Lined t (reline line pid q) := by
  have isSome (p : Int) : (t.mProcesses p).isSome = (s.mProcesses p).isSome := by
    have parent := congrArg isSome (parents p)
    rw [isSome_map] at parent
    rw [parent]
    split
    · rename_i same
      rw [same,present]
      rfl
    · simp
  have own {process : Process} (found : t.mProcesses pid = some process) : process.parent = q := by
    have parent := parents pid
    rw [found,map_some,if_pos rfl] at parent
    exact some.inj parent
  have before {p : Int} {process : Process} (other : p ≠ pid) (found : t.mProcesses p = some process) :
      ∃ old, s.mProcesses p = some old ∧ old.parent = process.parent := by
    have parent := parents p
    rw [found,map_some,if_neg other] at parent
    exact map_eq_some_iff.mp parent.symm
  have not_fake : pid ∉ line mFakeProcess := by
    rw [lined.line_fake,List.mem_singleton]
    exact real
  refine ⟨(isSome _).trans lined.fake,?_,fun p process is_real found => ?_,fun p process is_real found => ?_⟩
  · rw [reline_of_not_mem not_fake,lined.line_fake]
  · by_cases same : p = pid
    · subst same
      obtain ⟨old,was⟩ := isSome_iff_exists.mp present
      rw [own found,reline_of_not_mem apart,reline,if_pos (lined.self_mem present),lined.line_up p old is_real was]
      simp
    · obtain ⟨old,was,parent⟩ := before same found
      have up := lined.line_up p old is_real was
      rw [← parent]
      by_cases above : pid ∈ line old.parent
      · rw [reline,reline,if_pos above,if_pos (by rw [up]; exact List.mem_cons_of_mem _ above),up]
        simp [same]
      · have off : pid ∉ line p := by
          rw [up,List.mem_cons]
          rintro (eq | member)
          · exact same eq.symm
          · exact above member
        rw [reline_of_not_mem above,reline_of_not_mem off,up]
  · rw [isSome]
    by_cases same : p = pid
    · subst same
      rw [own found]
      exact there
    · obtain ⟨old,was,parent⟩ := before same found
      rw [← parent]
      exact lined.parent_present p old is_real was

theorem parentFor_present (lined : Lined s line) (ppid : Int) : (s.mProcesses (s.parentFor ppid)).isSome := by
  rw [Processes.parentFor]
  split
  · assumption
  · exact lined.fake

/-- The links that a move changes: those of the old parent, of the process and of the new parent. -/
def relinked (u : Processes) (pid old q : Int) : Processes :=
  ((u.modify old fun old => { old with children := old.children.filter (· ≠ pid) }).modify pid
    fun ps => { ps with parent := q }).modify q fun parent => { parent with children := parent.children++[pid] }

theorem moved_parents {u : Processes} (same : Same u s) (present : (s.mProcesses pid).isSome) (old q p : Int) :
    ((relinked u pid old q).mProcesses p).map (·.parent) =
      if p = pid then some q else (s.mProcesses p).map (·.parent) := by
  rw [← same.parents p,relinked,modify_parents _ _ _ (by intro; rfl),Processes.modify_apply]
  split
  · rename_i own
    have still : (u.mProcesses p).isSome := (same.isSome p).trans (own ▸ present)
    have there := congrArg isSome (modify_parents u old p
      (f := fun old => { old with children := old.children.filter (· ≠ pid) }) (by intro; rfl))
    simp only [isSome_map] at there
    obtain ⟨now,is_now⟩ := isSome_iff_exists.mp (there.trans still)
    rw [is_now]
    rfl
  · exact modify_parents _ _ _ (by intro; rfl)

/-- What a call of `updateProcess` that comes back has done: the process has the parent that was looked up, which was
not below the process. -/
theorem updateProcess_spec (lined : Lined s line) (real : pid ≠ mFakeProcess) (present : (s.mProcesses pid).isSome)
    (ran : s.updateProcess k fuel pid ppid = some s') : pid ∉ line (s.parentFor ppid) ∧
      (∀ p, (s'.mProcesses p).map (·.parent) =
        if p = pid then some (s.parentFor ppid) else (s.mProcesses p).map (·.parent)) ∧
      s'.mToBeProcessed = s.mToBeProcessed := by
  obtain ⟨process,found⟩ := isSome_iff_exists.mp present
  simp only [Processes.updateProcess,bind_eq_bind,found,bind_some] at ran
  have told (u : Processes) (p : Int) : (((u.modify pid fun ps => { ps with parent_pid := ppid }).updateProcessInfo k
      pid).mProcesses p).map (·.parent) = (u.mProcesses p).map (·.parent) :=
    (modify_parents _ _ _ (by intro; rfl)).trans (modify_parents _ _ _ (by intro; rfl))
  split at ran
  · obtain ⟨u,first,ran⟩ := bind_eq_some_iff.mp ran
    obtain ⟨v,second,ran⟩ := bind_eq_some_iff.mp ran
    obtain rfl := some.inj ran
    have sameFirst := count_same first
    have moved := moved_parents sameFirst present process.parent (s.parentFor ppid)
    have waits : (relinked u pid process.parent (s.parentFor ppid)).mToBeProcessed = s.mToBeProcessed := sameFirst.toBe
    change Processes.count 1 fuel (s.parentFor ppid) (relinked u pid process.parent (s.parentFor ppid)) = some v at second
    generalize relinked u pid process.parent (s.parentFor ppid) = w at second moved waits
    have sameSecond := count_same second
    refine ⟨fun above => ?_,fun p => ?_,?_⟩
    · -- the new parent is below the process, and the second loop goes round
      have none : Processes.count 1 fuel (s.parentFor ppid) w = none := by
        refine count_round (fun p => pid ∈ line p ∧ (s.mProcesses p).isSome) (fun inside => ?_) ?_
          ⟨above,lined.parentFor_present ppid⟩
        · rw [lined.line_fake,List.mem_singleton] at inside
          exact real inside.1
        · rintro p now ⟨inside,here⟩ is_now
          have parent := moved p
          rw [is_now,map_some] at parent
          split at parent
          · rw [some.inj parent]
            exact ⟨above,lined.parentFor_present ppid⟩
          · rename_i other
            obtain ⟨was,before,eq⟩ := map_eq_some_iff.mp parent.symm
            have is_real : p ≠ mFakeProcess := by
              rintro rfl
              rw [lined.line_fake,List.mem_singleton] at inside
              exact real inside
            rw [lined.line_up p was is_real before] at inside
            rw [← eq]
            exact ⟨(List.mem_cons.mp inside).resolve_left (Ne.symm other),lined.parent_present p was is_real before⟩
      rw [none] at second
      cases second
    · rw [told,sameSecond.parents p]
      exact moved p
    · exact sameSecond.toBe.trans waits
  · rename_i kept
    have parent : process.parent = s.parentFor ppid := by simpa using kept
    obtain rfl := some.inj ran
    refine ⟨parent ▸ lined.not_mem_parent real found,fun p => ?_,rfl⟩
    rw [told]
    split
    · rename_i own
      rw [own,found,map_some,parent]
    · rfl

/-- What a call of `addProcess` that comes back has done. -/
theorem addProcess_spec (ran : s.addProcess k fuel pid ppid = some s') :
    (∀ p, (s'.mProcesses p).map (·.parent) =
      if p = pid then some (s.parentFor ppid) else (s.mProcesses p).map (·.parent)) ∧
      s'.mToBeProcessed = s.mToBeProcessed := by
  simp only [Processes.addProcess,bind_eq_bind] at ran
  obtain ⟨v,counted,ran⟩ := bind_eq_some_iff.mp ran
  obtain rfl := some.inj ran
  have same := count_same counted
  refine ⟨fun p => ?_,same.toBe⟩
  rw [Processes.updateProcessInfo,modify_parents _ _ _ (by intro; rfl),same.parents p,modify_parents _ _ _ (by intro; rfl)]
  simp only [update_apply]
  split
  · rfl
  · rfl

end Lined

/-- A process is put below another one, alone or with what is below it. -/
structure Attached (s s' : Processes) (line line' : Int → List Int) (pid q : Int) : Prop where
  lined : Lined s' line'
  there : (s.mProcesses q).isSome
  apart : pid ∉ line q
  parents : ∀ p, (s'.mProcesses p).map (·.parent) = if p = pid then some q else (s.mProcesses p).map (·.parent)
  own : line' pid = pid :: line q
  kept : ∀ p, (s.mProcesses p).isSome → pid ∉ line p → line' p = line p
  toBe : s'.mToBeProcessed = s.mToBeProcessed

namespace Attached
variable {line' : Int → List Int}

theorem found (attached : Attached s s' line line' pid q) :
    ∃ process, s'.mProcesses pid = some process ∧ process.parent = q := by
  have parent := attached.parents pid
  rw [if_pos rfl] at parent
  exact map_eq_some_iff.mp parent

theorem isSome (attached : Attached s s' line line' pid q) (other : p ≠ pid) :
    (s'.mProcesses p).isSome = (s.mProcesses p).isSome := by
  have parent := congrArg Option.isSome (attached.parents p)
  rwa [Option.isSome_map,if_neg other,Option.isSome_map] at parent

end Attached

namespace Lined

theorem attached_update (lined : Lined s line) (real : pid ≠ mFakeProcess) (present : (s.mProcesses pid).isSome)
    (ran : s.updateProcess k fuel pid ppid = some s') :
    ∃ line', Attached s s' line line' pid (s.parentFor ppid) := by
  obtain ⟨apart,parents,toBe⟩ := lined.updateProcess_spec real present ran
  have there := lined.parentFor_present ppid
  obtain ⟨process,found⟩ := isSome_iff_exists.mp present
  refine ⟨_,lined.reattach real present there apart parents,there,apart,parents,?_,
    fun p _ off => reline_of_not_mem off,toBe⟩
  rw [reline,if_pos (lined.self_mem present),lined.line_up pid process real found]
  simp

theorem attached_add (lined : Lined s line) (real : pid ≠ mFakeProcess) (absent : s.mProcesses pid = none)
    (ran : s.addProcess k fuel pid ppid = some s') :
    ∃ line', Attached s s' line line' pid (s.parentFor ppid) := by
  obtain ⟨parents,toBe⟩ := addProcess_spec ran
  have there := lined.parentFor_present ppid
  have off (p : Int) (present : (s.mProcesses p).isSome) : pid ∉ line p := by
    intro member
    have here := (lined.mem_line present pid member).1
    rw [absent] at here
    cases here
  have apart : s.parentFor ppid ≠ pid := by
    intro same
    rw [same,absent] at there
    cases there
  have leaf (p : Int) (process : Process) (is_real : p ≠ mFakeProcess) (found : s.mProcesses p = some process) :
      process.parent ≠ pid := by
    intro same
    have present := lined.parent_present p process is_real found
    rw [same,absent] at present
    cases present
  refine ⟨_,lined.attach real leaf there apart parents,there,off _ there,parents,update_self ..,?_,toBe⟩
  intro p present _
  refine update_of_ne ?_ ..
  rintro rfl
  rw [absent] at present
  cases present

end Lined

/-- The processes form a tree and the list has each of them at its index, whatever the counts are. -/
structure Tree (s : Processes) (line : Int → List Int) : Prop extends Lined s line where
  listed : ∀ p, p ∈ s.mListProcesses ↔ p ≠ mFakeProcess ∧ (s.mProcesses p).isSome
  nodup : s.mListProcesses.Nodup
  index : ∀ p process, p ≠ mFakeProcess → s.mProcesses p = some process → s.mListProcesses[process.index]? = some p
  once : ∀ q process, s.mProcesses q = some process → process.children.Nodup
  children : ∀ q process, s.mProcesses q = some process → ∀ p, p ∈ process.children ↔
    p ≠ mFakeProcess ∧ ∃ child, s.mProcesses p = some child ∧ child.parent = q

/-- The table with the counts that it should have. -/
def recounted (s : Processes) (line : Int → List Int) : Processes :=
  { s with mProcesses := fun q => (s.mProcesses q).map fun process =>
    { process with numChildren := s.mListProcesses.countP fun p => p ≠ q ∧ q ∈ line p } }

theorem same_recounted (s : Processes) (line : Int → List Int) : Same s (recounted s line) := by
  refine ⟨fun p => ?_,rfl,rfl,rfl,rfl⟩
  rw [recounted,map_map]
  rfl

theorem Table.tree (table : Table s line) : Tree s line :=
  ⟨table.toLined,table.listed,table.nodup,table.index,table.once,table.children⟩

theorem Tree.same (tree : Tree s line) (same : Same s t) : Tree t line := by
  have old {p : Int} {now : Process} (found : t.mProcesses p = some now) :
      ∃ was, s.mProcesses p = some was ∧ was.children = now.children ∧ was.index = now.index := by
    obtain ⟨was,before,eq⟩ := same.symm.found found
    exact ⟨was,before,congrArg (·.children) eq,congrArg (·.index) eq⟩
  have child (p q : Int) : (∃ child, t.mProcesses p = some child ∧ child.parent = q) ↔
      ∃ child, s.mProcesses p = some child ∧ child.parent = q := by
    rw [← map_eq_some_iff,← map_eq_some_iff,same.parents p]
  refine ⟨tree.of_parents fun p => (same.parents p).symm,fun p => ?_,same.list ▸ tree.nodup,
    fun p now real found => ?_,fun q now found => ?_,fun q now found p => ?_⟩
  · rw [← same.list,← same.isSome]
    exact tree.listed p
  · obtain ⟨was,before,_,index⟩ := old found
    rw [← same.list,← index]
    exact tree.index p was real before
  · obtain ⟨was,before,children,_⟩ := old found
    rw [← children]
    exact tree.once q was before
  · obtain ⟨was,before,children,_⟩ := old found
    rw [← children,child]
    exact tree.children q was before p

theorem Tree.table (tree : Tree s line) : Table (recounted s line) line := by
  have same := tree.same (same_recounted s line)
  refine ⟨same.toLined,same.listed,same.nodup,same.index,same.once,same.children,fun q process found => ?_⟩
  obtain ⟨was,_,rfl⟩ := map_eq_some_iff.mp found
  rfl

theorem Same.count {delta : Int} : ∀ {fuel : Nat} {p : Int} {s t t' : Processes}, Same s t →
    Processes.count delta fuel p t = some t' → ∃ s', Processes.count delta fuel p s = some s' ∧ Same s' t' := by
  intro fuel
  induction fuel with
  | zero => exact fun _ ran => (nomatch ran)
  | succ fuel ih =>
    intro p s t t' same ran
    simp only [Processes.count,bind_eq_bind] at ran ⊢
    obtain ⟨process,found,rest⟩ := bind_eq_some_iff.mp ran
    obtain ⟨other,is_other,eq⟩ := same.symm.found found
    have changed := same.modify p (fun process => { process with numChildren := process.numChildren+delta })
      (fun _ => rfl)
    have parent : other.parent = process.parent := congrArg (·.parent) eq
    rw [is_other,bind_some,parent]
    split at rest
    · rename_i fake
      obtain rfl := some.inj rest
      exact ⟨_,if_pos fake,changed⟩
    · rename_i real
      rw [if_neg real]
      exact ih changed rest

theorem uncounted_fields {process other : Process} (eq : process.uncounted = other.uncounted) :
    process.parent_pid = other.parent_pid ∧ process.parent = other.parent ∧ process.children = other.children ∧
      process.index = other.index ∧ process.status = other.status := by
  simpa [Process.uncounted] using eq

theorem Same.addProcess {t' : Processes} (same : Same s t) (ran : t.addProcess k fuel pid ppid = some t') :
    ∃ s', s.addProcess k fuel pid ppid = some s' ∧ Same s' t' := by
  have parent : s.parentFor ppid = t.parentFor ppid := by
    rw [Processes.parentFor,Processes.parentFor,same.isSome]
  simp only [Processes.addProcess,bind_eq_bind,same.list,parent] at ran ⊢
  obtain ⟨v,counted,ran⟩ := bind_eq_some_iff.mp ran
  obtain rfl := some.inj ran
  generalize t.parentFor ppid = q at counted
  have inserted : Same { s with
      mProcesses := update s.mProcesses pid (some ⟨ppid,q,[],0,t.mListProcesses.length,.OtherStatus⟩)
      mListProcesses := t.mListProcesses++[pid] } { t with
      mProcesses := update t.mProcesses pid (some ⟨ppid,q,[],0,t.mListProcesses.length,.OtherStatus⟩)
      mListProcesses := t.mListProcesses++[pid] } := by
    refine ⟨fun p => ?_,rfl,same.toBe,same.last,same.ended⟩
    simp only [update_apply]
    split
    · rfl
    · exact same.processes p
  obtain ⟨u,counted',still⟩ := (inserted.modify q _ (fun _ => rfl)).count counted
  exact ⟨_,by rw [counted']; rfl,still.modify pid _ (fun _ => rfl)⟩

theorem Same.removeProcess {t' : Processes} (same : Same s t) (ran : t.removeProcess fuel pid = some t') :
    ∃ s', s.removeProcess fuel pid = some s' ∧ Same s' t' := by
  simp only [Processes.removeProcess,bind_eq_bind,same.list] at ran ⊢
  obtain ⟨process,found,ran⟩ := bind_eq_some_iff.mp ran
  obtain ⟨v,counted,ran⟩ := bind_eq_some_iff.mp ran
  obtain rfl := some.inj ran
  obtain ⟨other,is_other,eq⟩ := same.symm.found found
  obtain ⟨-,parent,-,index,-⟩ := uncounted_fields eq
  rw [is_other,bind_some,parent,index]
  have cut : Same { s with
      mProcesses := update s.mProcesses pid none
      mListProcesses := t.mListProcesses.filter (· ≠ pid) } { t with
      mProcesses := update t.mProcesses pid none
      mListProcesses := t.mListProcesses.filter (· ≠ pid) } := by
    refine ⟨fun p => ?_,rfl,same.toBe,same.last,same.ended⟩
    simp only [update_apply]
    split
    · rfl
    · exact same.processes p
  obtain ⟨u,counted',still⟩ := (cut.modify process.parent _ (fun _ => rfl)).count counted
  rw [counted',bind_some]
  refine ⟨_,rfl,fun p => ?_,still.list,still.toBe,still.last,still.ended⟩
  rw [map_map,map_map,still.list]
  cases now : u.mProcesses p with
  | none =>
    have gone : v.mProcesses p = none := not_isSome_iff_eq_none.mp (by rw [← still.isSome,now]; decide)
    rw [gone]
  | some it =>
    obtain ⟨that,is_that,eq⟩ := still.found now
    obtain ⟨ppid,parent,children,index,status⟩ := uncounted_fields eq
    rw [is_that]
    simp only [map_some,comp_apply,index]
    split <;> simp [Process.uncounted,ppid,parent,children,index,status]

theorem Same.deleteProcess : ∀ {fuel : Nat} {pid : Int} {s t t' : Processes}, Same s t →
    Processes.deleteProcess fuel pid t = some t' → ∃ s', Processes.deleteProcess fuel pid s = some s' ∧ Same s' t' := by
  intro fuel
  induction fuel with
  | zero => exact fun _ ran => (nomatch ran)
  | succ fuel ih =>
    intro pid s t t' same ran
    rw [Processes.deleteProcess] at ran ⊢
    cases found : t.mProcesses pid with
    | none =>
      have gone : s.mProcesses pid = none := not_isSome_iff_eq_none.mp (by rw [same.isSome,found]; decide)
      rw [found] at ran
      obtain rfl := some.inj ran
      rw [gone]
      exact ⟨s,rfl,same⟩
    | some process =>
      obtain ⟨other,is_other,eq⟩ := same.symm.found found
      obtain ⟨-,-,children,-,-⟩ := uncounted_fields eq
      rw [found] at ran
      rw [is_other]
      simp only [bind_eq_bind,children] at ran ⊢
      obtain ⟨u,folded,removed⟩ := bind_eq_some_iff.mp ran
      have follows (s t t' : Processes) (it : Int) (same : Same s t)
          (deleted : Processes.deleteProcess fuel it
            { t with mProcessedLastTime := t.mProcessedLastTime.erase it } = some t') :
          ∃ s', Processes.deleteProcess fuel it { s with mProcessedLastTime := s.mProcessedLastTime.erase it } =
            some s' ∧ Same s' t' := by
        refine ih ?_ deleted
        exact ⟨same.processes,same.list,same.toBe,congrArg (Finset.erase · it) same.last,same.ended⟩
      obtain ⟨v,folded',still⟩ := Loops.foldlM_follows follows process.children same folded
      obtain ⟨s',removed',last⟩ := still.removeProcess removed
      refine ⟨s',?_,last⟩
      rw [folded',bind_some]
      exact removed'

/-- Where a process is in the tree. -/
def Process.place (process : Process) : Int × List Int × Nat := (process.parent,process.children,process.index)

/-- The children of a process when another one has been taken from its old parent and given to its new one. -/
def handedOver (pid old q p : Int) (children : List Int) : List Int :=
  if old = q then children
  else (if p = old then children.filter (· ≠ pid) else children)++if p = q then [pid] else []

theorem mem_handedOver {old : Int} {children : List Int} (own : pid ∈ children ↔ p = old) (r : Int) :
    r ∈ handedOver pid old q p children ↔ if r = pid then p = q else r ∈ children := by
  unfold handedOver
  by_cases kept : old = q
  · rw [if_pos kept]
    split
    · rename_i same
      rw [same,own,kept]
    · rfl
  · rw [if_neg kept]
    exact Table.mem_handedOver own r

theorem handedOver_nodup {old : Int} {children : List Int} (own : pid ∈ children ↔ p = old) (once : children.Nodup) :
    (handedOver pid old q p children).Nodup := by
  unfold handedOver
  split
  · exact once
  · exact Table.handedOver_nodup own once

/-- A call of `updateProcess` that comes back has moved the process, in the lists of children too. -/
theorem updateProcess_places {process : Process} (found : s.mProcesses pid = some process)
    (apart : s.parentFor ppid ≠ pid) (old : process.parent ≠ pid) (ran : s.updateProcess k fuel pid ppid = some s') :
    s'.mListProcesses = s.mListProcesses ∧ s'.mProcessedLastTime = s.mProcessedLastTime ∧
      ∀ p, (s'.mProcesses p).map Process.place = (s.mProcesses p).map fun it =>
        (if p = pid then s.parentFor ppid else it.parent,
          handedOver pid process.parent (s.parentFor ppid) p it.children,it.index) := by
  simp only [Processes.updateProcess,bind_eq_bind,found,bind_some] at ran
  have told (u : Processes) (p : Int) : (((u.modify pid fun ps => { ps with parent_pid := ppid }).updateProcessInfo k
      pid).mProcesses p).map Process.place = (u.mProcesses p).map Process.place := by
    simp only [Processes.updateProcessInfo,Processes.modify_apply]
    split
    · rw [map_map,map_map]
      rfl
    · rfl
  split at ran
  · rename_i differs
    obtain ⟨u,first,ran⟩ := bind_eq_some_iff.mp ran
    obtain ⟨v,second,ran⟩ := bind_eq_some_iff.mp ran
    obtain rfl := some.inj ran
    have sameFirst := count_same first
    have sameSecond := count_same second
    refine ⟨sameSecond.list.trans sameFirst.list,sameSecond.last.trans sameFirst.last,fun p => ?_⟩
    rw [told,sameSecond.fields Process.place (fun _ => rfl) p]
    have before := sameFirst.fields (fun it => (if p = pid then s.parentFor ppid else it.parent,
        (if p = process.parent then it.children.filter (· ≠ pid) else it.children)++
          if p = s.parentFor ppid then [pid] else [],it.index)) (fun _ => rfl) p
    simp only [handedOver,if_neg differs]
    rw [← before]
    simp only [Processes.modify_apply]
    by_cases own : p = pid
    · subst own
      simp [Ne.symm apart,Ne.symm old,Process.place,comp_def]
    · by_cases is_old : p = process.parent
      · subst is_old
        simp [own,differs,Process.place,comp_def]
      · by_cases is_new : p = s.parentFor ppid
        · simp [is_new,Ne.symm differs,apart,Process.place,comp_def]
        · simp only [if_neg own,if_neg is_old,if_neg is_new,List.append_nil]
          rfl
  · rename_i kept
    have parent : process.parent = s.parentFor ppid := by simpa using kept
    obtain rfl := some.inj ran
    refine ⟨rfl,rfl,fun p => ?_⟩
    rw [told]
    by_cases own : p = pid
    · subst own
      rw [found]
      simp [Process.place,handedOver,parent]
    · simp only [handedOver,if_neg own,if_pos parent]
      rfl

theorem Tree.updateProcess {line' : Int → List Int} (tree : Tree s line) (real : pid ≠ mFakeProcess)
    (present : (s.mProcesses pid).isSome) (attached : Attached s s' line line' pid (s.parentFor ppid))
    (ran : s.updateProcess k fuel pid ppid = some s') :
    Tree s' line' ∧ s'.mProcessedLastTime = s.mProcessedLastTime := by
  obtain ⟨process,found⟩ := isSome_iff_exists.mp present
  have self : pid ∈ line pid := tree.self_mem present
  have apart : s.parentFor ppid ≠ pid := fun same => attached.apart (same ▸ self)
  have old : process.parent ≠ pid := fun same => tree.not_mem_parent real found (same ▸ self)
  obtain ⟨list,last,places⟩ := updateProcess_places found apart old ran
  have isSome (p : Int) : (s'.mProcesses p).isSome = (s.mProcesses p).isSome := by
    have place := congrArg isSome (places p)
    simpa using place
  have before {p : Int} {now : Process} (is_now : s'.mProcesses p = some now) : ∃ was, s.mProcesses p = some was ∧
      now.children = handedOver pid process.parent (s.parentFor ppid) p was.children ∧ now.index = was.index := by
    have place := places p
    rw [is_now,map_some] at place
    obtain ⟨was,is_was,eq⟩ := map_eq_some_iff.mp place.symm
    exact ⟨was,is_was,(congrArg (·.2.1) eq).symm,(congrArg (·.2.2) eq).symm⟩
  have own {p : Int} {was : Process} (is_was : s.mProcesses p = some was) : pid ∈ was.children ↔ p = process.parent := by
    rw [tree.children p was is_was,found]
    simp [real,eq_comm]
  have child (p q : Int) : (∃ child, s'.mProcesses p = some child ∧ child.parent = q) ↔
      if p = pid then q = s.parentFor ppid else ∃ child, s.mProcesses p = some child ∧ child.parent = q := by
    rw [← map_eq_some_iff,attached.parents p]
    split
    · exact some_inj.trans eq_comm
    · rw [map_eq_some_iff]
  refine ⟨⟨attached.lined,?_,list ▸ tree.nodup,?_,?_,?_⟩,last⟩
  · intro p
    rw [list,isSome]
    exact tree.listed p
  · intro p now is_real is_now
    obtain ⟨was,is_was,_,index⟩ := before is_now
    rw [list,index]
    exact tree.index p was is_real is_was
  · intro p now is_now
    obtain ⟨was,is_was,children,_⟩ := before is_now
    rw [children]
    exact handedOver_nodup (own is_was) (tree.once p was is_was)
  · intro p now is_now r
    obtain ⟨was,is_was,children,_⟩ := before is_now
    rw [children,mem_handedOver (own is_was),child]
    split
    · rename_i same
      simp [same,real]
    · exact tree.children p was is_was r

theorem Tree.addProcess (tree : Tree s line) (real : pid ≠ mFakeProcess) (absent : s.mProcesses pid = none)
    (ran : Returns (fun fuel => s.addProcess k fuel pid ppid) s') :
    (∃ line', Tree s' line') ∧ s'.mProcessedLastTime = s.mProcessedLastTime := by
  have same := same_recounted s line
  have gone : (recounted s line).mProcesses pid = none := map_eq_none_iff.mpr absent
  obtain ⟨t,line',⟨n,returns⟩,table,_,last,_⟩ := tree.table.returns_addProcess (k := k) real gone ppid
  obtain ⟨m,ran⟩ := ran
  obtain ⟨u,added,still⟩ := same.addProcess (returns (n+m) (Nat.le_add_right ..))
  have eq : u = s' := some.inj (added.symm.trans (ran (n+m) (Nat.le_add_left ..)))
  subst eq
  exact ⟨⟨line',table.tree.same still.symm⟩,still.last.trans last⟩

theorem Tree.deleteProcess (tree : Tree s line) (real : pid ≠ mFakeProcess)
    (ran : Returns (fun fuel => Processes.deleteProcess fuel pid s) s') :
    Tree s' line ∧ ∀ p ∈ s'.mProcessedLastTime, p ∈ s.mProcessedLastTime := by
  have same := same_recounted s line
  obtain ⟨t,⟨n,returns⟩,reduced⟩ := tree.table.returns_deleteProcess real
  obtain ⟨m,ran⟩ := ran
  obtain ⟨u,deleted,still⟩ := same.deleteProcess (returns (n+m) (Nat.le_add_right ..))
  have eq : u = s' := some.inj (deleted.symm.trans (ran (n+m) (Nat.le_add_left ..)))
  subst eq
  refine ⟨reduced.table.tree.same still.symm,fun p member => ?_⟩
  rw [still.last] at member
  exact ((reduced.lastTime p).mp member).1

theorem Tree.sets (tree : Tree s line) (get : s'.mProcesses = s.mProcesses) (list : s'.mListProcesses = s.mListProcesses) :
    Tree s' line := by
  refine ⟨tree.of_parents fun p => by rw [get],fun p => ?_,list ▸ tree.nodup,fun p process => ?_,fun q process => ?_,
    fun q process => ?_⟩
  · rw [list,get]
    exact tree.listed p
  · rw [list,get]
    exact tree.index p process
  · rw [get]
    exact tree.once q process
  · rw [get]
    exact tree.children q process

theorem Tree.marked (tree : Tree s line) (reported : Finset Int) : Tree (s.markProcessesAsEnded reported) line := by
  have marked := tree.table.restate (t := (recounted s line).markProcessesAsEnded reported)
    (fun p process => if p ∈ s.mProcessedLastTime then { process with status := .Ended } else process)
    (fun p process => by split <;> simp) (fun _ => rfl) rfl
  refine marked.tree.same ⟨fun p => ?_,rfl,rfl,rfl,rfl⟩
  simp only [Processes.markProcessesAsEnded,recounted,Option.map_map]
  refine congrArg (Option.map · _) (funext fun process => ?_)
  by_cases ended : p ∈ s.mProcessedLastTime
  · simp [ended,Process.uncounted]
  · simp [ended,Process.uncounted]

theorem Tree.returns_addProcess (tree : Tree s line) (k : Kernel) (real : pid ≠ mFakeProcess)
    (absent : s.mProcesses pid = none) (ppid : Int) : ∃ s', Returns (fun fuel => s.addProcess k fuel pid ppid) s' := by
  have gone : (recounted s line).mProcesses pid = none := map_eq_none_iff.mpr absent
  obtain ⟨t,_,⟨n,returns⟩,_⟩ := tree.table.returns_addProcess (k := k) real gone ppid
  obtain ⟨s',added,_⟩ := (same_recounted s line).addProcess (returns n (Nat.le_refl _))
  exact ⟨s',.of_addProcess added⟩

theorem Lined.returns_updateProcess (lined : Lined s line) (k : Kernel) (real : pid ≠ mFakeProcess)
    (present : (s.mProcesses pid).isSome) (apart : pid ∉ line (s.parentFor ppid)) :
    ∃ s', Returns (fun fuel => s.updateProcess k fuel pid ppid) s' := by
  obtain ⟨process,found⟩ := isSome_iff_exists.mp present
  by_cases kept : process.parent = s.parentFor ppid
  · exact ⟨_,0,fun fuel _ => Table.updateProcess_kept found kept fuel⟩
  · have there := lined.parentFor_present ppid
    have first := lined.count (-1) (lined.parent_present pid process real found) (Nat.le_refl _)
    have parents := moved_parents (count_same first) present process.parent (s.parentFor ppid)
    have still : ((relinked (s.bump (-1) (line process.parent)) pid process.parent (s.parentFor ppid)).mProcesses
        (s.parentFor ppid)).isSome := by
      have parent := congrArg isSome (parents (s.parentFor ppid))
      rw [isSome_map] at parent
      rw [parent]
      split
      · rfl
      · rwa [isSome_map]
    have enough : (reline line pid (s.parentFor ppid) (s.parentFor ppid)).length ≤ (line (s.parentFor ppid)).length := by
      rw [reline_of_not_mem apart]
    have second := (lined.reattach real present there apart parents).count 1 still enough
    generalize (relinked (s.bump (-1) (line process.parent)) pid process.parent (s.parentFor ppid)).bump 1 _ = w at second
    have ran : s.updateProcess k ((line process.parent).length+(line (s.parentFor ppid)).length) pid ppid =
        some ((w.modify pid fun ps => { ps with parent_pid := ppid }).updateProcessInfo k pid) := by
      simp only [Processes.updateProcess,bind_eq_bind,found,bind_some]
      rw [if_pos kept,count_more first (Nat.le_add_right ..),bind_some]
      have more := count_more second (Nat.le_add_left _ (line process.parent).length)
      rw [relinked] at more
      rw [more]
      rfl
    exact ⟨_,.of_updateProcess ran⟩

end

end KdeWorkspace.ProcessTable
