import KdeWorkspace.Containers

/-!
How ksysguardd executes a command of a client: the list of the commands is walked through with the cursor of the
container, the module of the command that is found is updated first if that is due, and then the executor is called.

The update of a module may register and remove commands, the one that has been found among them, whose memory is freed
then and read afterwards. `executeCommand_iff` says that this is all that goes wrong.
-/
namespace KdeWorkspace.CommandExecution
open Containers List Option Function
set_option linter.unusedSectionVars false

/-- Timer interval in centi-seconds for running `updateCommand` on modules that support it. -/
def UPDATEINTERVAL : UInt64 := 1

structure Command (M E : Type) where
  command : List Char
  ex : E
  isMonitor : Bool
  sm : Option M
deriving Repr, DecidableEq

/-- The commands by their addresses, the list of these, and the next address that `malloc` gives. What has been freed
has no command and is not given again. -/
structure Daemon (M E : Type) where
  commands : Nat → Option (Command M E)
  CommandList : Container Nat Nat
  fresh : Nat
  timeCentiSeconds : M → UInt64
  ReconfigureFlag : Bool

/-- What a module calls. -/
inductive Call (M E : Type)
  | registerCommand (command : List Char) (ex : E)
  | removeCommand (command : List Char)
  | registerMonitor (command : List Char) (ex iq : E) (sm : M)
  | removeMonitor (command : List Char)
deriving Repr, DecidableEq

/-- What the callbacks of the modules call this time. -/
structure Callbacks (M E : Type) where
  updateCommand : M → Option (List (Call M E))
  executor : E → List (Call M E)

inductive Message
  | unknownCommand
  | reconfigure
deriving Repr, DecidableEq

variable {M E : Type} [DecidableEq M]

namespace Daemon

def push (d : Daemon M E) (cmd : Command M E) : Option (Daemon M E) := do
  let list ← d.CommandList.push_ctnr (some d.fresh) (d.fresh+1)
  some { d with commands := Function.update d.commands d.fresh (some cmd), CommandList := list, fresh := d.fresh+2 }

def registerCommand (d : Daemon M E) (command : List Char) (ex : E) : Option (Daemon M E) := do
  let d ← d.push ⟨command,ex,false,none⟩
  some { d with ReconfigureFlag := true }

/-- The command at the cursor is taken out and freed if it has the name. -/
def removeHere (d : Daemon M E) (command : List Char) (p : Nat) : Option (Daemon M E) := do
  let cmd ← d.commands p
  if cmd.command = command then do
    let (list,_) ← d.CommandList.remove_ctnr
    some { d with CommandList := list, commands := Function.update d.commands p none }
  else some d

/-- The rest of the loop of `removeCommand`, from the command `p` on. -/
def removeFrom (command : List Char) : Nat → Daemon M E → Option Nat → Option (Daemon M E)
  | 0,_,_ => none
  | _+1,d,none => some d
  | fuel+1,d,some p => do
    let d ← d.removeHere command p
    let (list,next) ← d.CommandList.next_ctnr
    removeFrom command fuel { d with CommandList := list } next

def removeCommand (d : Daemon M E) (fuel : Nat) (command : List Char) : Option (Daemon M E) := do
  let (list,first) ← d.CommandList.first_ctnr
  let d ← removeFrom command fuel { d with CommandList := list } first
  some { d with ReconfigureFlag := true }

/-- A monitor is two commands, the second of which asks for its description. -/
def registerAnyMonitor (d : Daemon M E) (command : List Char) (ex iq : E) (sm : M) : Option (Daemon M E) := do
  let d ← d.push ⟨command,ex,true,some sm⟩
  d.push ⟨command ++ ['?'],iq,false,some sm⟩

def removeMonitor (d : Daemon M E) (fuel : Nat) (command : List Char) : Option (Daemon M E) := do
  let d ← d.removeCommand fuel command
  d.removeCommand fuel (command ++ ['?'])

/-- No loop goes through more commands than have been allocated. -/
def call (d : Daemon M E) : Call M E → Option (Daemon M E)
  | .registerCommand command ex => d.registerCommand command ex
  | .removeCommand command => d.removeCommand (d.fresh+1) command
  | .registerMonitor command ex iq sm => d.registerAnyMonitor command ex iq sm
  | .removeMonitor command => d.removeMonitor (d.fresh+1) command

def calls (d : Daemon M E) (list : List (Call M E)) : Option (Daemon M E) := list.foldlM call d

/-- The first of the commands with the name, from the command `p` on. -/
def findFrom (command : List Char) (lengthOfCommand : Nat) :
    Nat → Daemon M E → Option Nat → Option (Daemon M E × Option Nat)
  | 0,_,_ => none
  | _+1,d,none => some (d,none)
  | fuel+1,d,some p => do
    let cmd ← d.commands p
    if cmd.command.take lengthOfCommand = command.take lengthOfCommand ∧ cmd.command[lengthOfCommand]? = none then
      some (d,some p)
    else do
      let (list,next) ← d.CommandList.next_ctnr
      findFrom command lengthOfCommand fuel { d with CommandList := list } next

/-- The update of a module, if it has one and the last is long enough ago. -/
def update (callbacks : Callbacks M E) (now : UInt64) (d : Daemon M E) (cmd : Command M E) : Option (Daemon M E) :=
  if cmd.isMonitor then do
    let sm ← cmd.sm
    match callbacks.updateCommand sm with
    | none => some d
    | some list =>
      if UPDATEINTERVAL ≤ now-d.timeCentiSeconds sm then
        calls { d with timeCentiSeconds := Function.update d.timeCentiSeconds sm now } list
      else some d
  else some d

/-- An executor that has been called: which one, of which command, and the state at that moment. -/
structure Executed (M E : Type) where
  ex : E
  cmd : Nat
  daemon : Daemon M E

structure Answer (M E : Type) where
  daemon : Daemon M E
  executed : List (Executed M E)
  messages : List Message

def find (d : Daemon M E) (command : List Char) (lengthOfCommand : Nat) : Option (Daemon M E × Option Nat) := do
  let (list,first) ← d.CommandList.first_ctnr
  findFrom command lengthOfCommand (d.fresh+1) { d with CommandList := list } first

/-- What is done with the command that has been found. -/
def execute (callbacks : Callbacks M E) (now : UInt64) (d : Daemon M E) (p : Nat) : Option (Answer M E) := do
  let d ← d.update callbacks now (← d.commands p)
  let cmd ← d.commands p
  let after ← d.calls (callbacks.executor cmd.ex)
  some ⟨{ after with ReconfigureFlag := false },[⟨cmd.ex,p,d⟩],if after.ReconfigureFlag then [.reconfigure] else []⟩

/-- There is no answer if something is read that has been freed. -/
def executeCommand (callbacks : Callbacks M E) (now : UInt64) (d : Daemon M E) (command : List Char) :
    Option (Answer M E) :=
  let lengthOfCommand := (command.takeWhile fun c => c ≠ ' ' ∧ c ≠ '\t').length
  if lengthOfCommand ≤ 0 then some ⟨d,[],[]⟩
  else do
    match ← d.find command lengthOfCommand with
    | (d,none) => some ⟨d,[],[.unknownCommand]⟩
    | (d,some p) => execute callbacks now d p

end Daemon

/-- The nodes of the list with the commands at them. -/
structure Listed (d : Daemon M E) (entries : List (Nat × Nat)) : Prop where
  ringed : d.CommandList.Ringed (entries.map (·.1))
  data : ∀ e ∈ entries, d.CommandList.data e.1 = some e.2
  live : ∀ e ∈ entries, (d.commands e.2).isSome
  modules : ∀ e ∈ entries, ∀ cmd, d.commands e.2 = some cmd → cmd.isMonitor → cmd.sm.isSome
  distinct : (entries.map (·.2)).Nodup
  unused : ∀ a, d.fresh ≤ a → d.CommandList.heap a = none ∧ d.commands a = none
  few : entries.length ≤ d.fresh

def Registered (d : Daemon M E) (p : Nat) (cmd : Command M E) : Prop :=
  ∃ entries, Listed d entries ∧ p ∈ entries.map (·.2) ∧ d.commands p = some cmd

/-- The word in front of the first blank. -/
def word (command : List Char) : List Char := command.takeWhile fun c => c ≠ ' ' ∧ c ≠ '\t'

/-- At most one executor is called, that of a command with the name, and a command is only unknown if there is none. -/
structure Right (callbacks : Callbacks M E) (now : UInt64) (d : Daemon M E) (command : List Char) : Prop where
  answers : (d.executeCommand callbacks now command).isSome
  executed : ∀ answer, d.executeCommand callbacks now command = some answer →
    answer.executed.length ≤ 1 ∧ ∀ e ∈ answer.executed, ∃ cmd, Registered e.daemon e.cmd cmd ∧
      cmd.command = word command ∧ cmd.ex = e.ex
  unknown : ∀ answer, d.executeCommand callbacks now command = some answer → .unknownCommand ∈ answer.messages →
    ∀ p cmd, Registered d p cmd → cmd.command ≠ word command

/-- The calls that remove a command. -/
def Call.Removes (name : List Char) : Call M E → Prop
  | .registerCommand _ _ => False
  | .removeCommand command => command = name
  | .registerMonitor _ _ _ _ => False
  | .removeMonitor command => command = name ∨ command ++ ['?'] = name

/-- The first of the commands with a name. -/
def First (d : Daemon M E) (name : List Char) (cmd : Command M E) : Prop :=
  ∃ before e after, Listed d (before ++ e :: after) ∧ d.commands e.2 = some cmd ∧ cmd.command = name ∧
    ∀ b ∈ before, ∀ other, d.commands b.2 = some other → other.command ≠ name

/-- No update that is due removes the command. -/
def Spared (callbacks : Callbacks M E) (now : UInt64) (d : Daemon M E) (command : List Char) : Prop :=
  word command ≠ [] → ∀ cmd, First d (word command) cmd → cmd.isMonitor → ∀ sm ∈ cmd.sm,
    UPDATEINTERVAL ≤ now-d.timeCentiSeconds sm → ∀ list ∈ callbacks.updateCommand sm,
      ∀ call ∈ list, ¬ call.Removes (word command)

variable {d d' : Daemon M E} {entries kept rest : List (Nat × Nat)} {e : Nat × Nat} {command name : List Char}

section
variable {c c' : Container Nat Nat} {a x : Nat}

theorem push_ctnr_frame {object : Nat} (pushed : c.push_ctnr (some object) a = some c') :
    c'.data a = some object ∧ ∀ x, x ≠ a → c'.data x = c.data x ∧ (c.heap x = none → c'.heap x = none) := by
  simp only [Container.push_ctnr,bind_eq_bind] at pushed
  obtain ⟨last,_,pushed⟩ := bind_eq_some_iff.mp pushed
  obtain rfl := some.inj pushed
  refine ⟨by simp,?_⟩
  intro x other
  refine ⟨by simp [other],?_⟩
  intro unused
  have still : ((((c.alloc a ⟨some c.rootNode,some last,some object⟩).setNext last (some a)).setPrev c.rootNode
      (some a)).heap x).isSome = false := by
    simp [other,unused]
  exact isNone_iff_eq_none.mp (isSome_eq_false_iff.mp still)

theorem remove_ctnr_unused {object : Option Nat} (removed : c.remove_ctnr = some (c',object)) (unused : c.heap x = none) :
    c'.heap x = none := by
  rw [Container.remove_ctnr] at removed
  split at removed
  · obtain ⟨rfl,_⟩ := Prod.mk.inj (some.inj removed)
    exact unused
  · simp only [bind_eq_bind] at removed
    obtain ⟨tmp,_,removed⟩ := bind_eq_some_iff.mp removed
    obtain ⟨left,unlinked,removed⟩ := bind_eq_some_iff.mp removed
    obtain ⟨rfl,_⟩ := Prod.mk.inj (some.inj removed)
    simp only [Container.unlink,bind_eq_bind] at unlinked
    obtain ⟨before,_,unlinked⟩ := bind_eq_some_iff.mp unlinked
    obtain ⟨after,_,unlinked⟩ := bind_eq_some_iff.mp unlinked
    obtain rfl := some.inj unlinked
    have still : (((((c.setNext before (some after)).setPrev after (some before)).free c.currentNode).heap x)).isSome =
        false := by
      simp [unused]
    exact isNone_iff_eq_none.mp (isSome_eq_false_iff.mp still)

end

theorem Listed.setCurrent (listed : Listed d entries) (a : Nat) :
    Listed { d with CommandList := d.CommandList.setCurrent a } entries :=
  ⟨listed.ringed.setCurrent a,listed.data,listed.live,listed.modules,listed.distinct,listed.unused,listed.few⟩

theorem push_listed (listed : Listed d entries) {cmd : Command M E} (module : cmd.isMonitor → cmd.sm.isSome) :
    ∃ d', d.push cmd = some d' ∧ Listed d' (entries ++ [(d.fresh+1,d.fresh)]) ∧
      ∀ a, a ≠ d.fresh → d'.commands a = d.commands a := by
  obtain ⟨node,_⟩ := listed.unused (d.fresh+1) (by omega)
  obtain ⟨list,pushed,left⟩ := Container.push_ctnr_ringed d.fresh listed.ringed node
  obtain ⟨new,others⟩ := push_ctnr_frame pushed
  have older : ∀ e ∈ entries, e.1 ≠ d.fresh+1 ∧ e.2 ≠ d.fresh := by
    intro e inside
    constructor
    · rintro same
      have held := listed.data e inside
      rw [same,Container.data,node] at held
      cases held
    · rintro same
      have live := listed.live e inside
      rw [same,(listed.unused d.fresh (le_refl _)).2] at live
      cases live
  refine ⟨_,by rw [Daemon.push,pushed]; rfl,⟨?_,?_,?_,?_,?_,?_,?_⟩,?_⟩
  · rw [map_append]
    exact left.ringed
  · intro e inside
    rcases mem_append.mp inside with before | last
    · dsimp only
      rw [(others e.1 (older e before).1).1]
      exact listed.data e before
    · rw [mem_singleton.mp last]
      exact new
  · intro e inside
    dsimp only
    rcases mem_append.mp inside with before | last
    · rw [update_of_ne (older e before).2]
      exact listed.live e before
    · rw [mem_singleton.mp last,update_self]
      rfl
  · intro e inside other at_e monitor
    dsimp only at at_e
    rcases mem_append.mp inside with before | last
    · rw [update_of_ne (older e before).2] at at_e
      exact listed.modules e before other at_e monitor
    · rw [mem_singleton.mp last,update_self] at at_e
      obtain rfl := some.inj at_e
      exact module monitor
  · rw [map_append,nodup_append]
    refine ⟨listed.distinct,nodup_singleton _,?_⟩
    intro p inside q last same
    obtain ⟨e,before,rfl⟩ := mem_map.mp inside
    exact (older e before).2 (same.trans (mem_singleton.mp last))
  · intro a later
    dsimp only at later ⊢
    obtain ⟨heap,unused⟩ := listed.unused a (by omega)
    exact ⟨(others a (by omega)).2 heap,by rw [update_of_ne (by omega)]; exact unused⟩
  · rw [length_append]
    have few := listed.few
    simp only [length_singleton]
    omega
  · intro a other
    exact update_of_ne other ..

/-- The cursor stands behind the entries, at the last of them or at the root. -/
def Behind (d : Daemon M E) (kept : List (Nat × Nat)) : Prop :=
  d.CommandList.currentNode = (kept.map (·.1)).getLastD d.CommandList.rootNode

theorem next_end (listed : Listed d kept) (cursor : Behind d kept) :
    d.CommandList.next_ctnr = some (d.CommandList,none) := by
  have ringed := listed.ringed
  rw [← append_nil (kept.map _)] at ringed
  exact Container.next_ctnr_ringed ringed cursor

theorem next_entry (listed : Listed d (kept ++ e :: rest)) (cursor : Behind d kept) :
    d.CommandList.next_ctnr = some (d.CommandList.setCurrent e.1,some e.2) := by
  have ringed := listed.ringed
  rw [map_append,map_cons] at ringed
  have went := Container.next_ctnr_ringed ringed cursor
  dsimp only at went
  rwa [listed.data e (by simp)] at went

/-- The command of the entry has the name. -/
def named (d : Daemon M E) (name : List Char) (e : Nat × Nat) : Bool :=
  (d.commands e.2).any fun cmd => cmd.command = name

/-- The commands of the name are freed, the others stay as they are. -/
structure Removed (name : List Char) (entries : List (Nat × Nat)) (d d' : Daemon M E) : Prop where
  same : ∀ a, a ∉ (entries.filter (named d name)).map (·.2) → d'.commands a = d.commands a
  gone : ∀ e ∈ entries, named d name e → d'.commands e.2 = none
  fresh : d'.fresh = d.fresh

theorem removeHere_listed (name : List Char) (listed : Listed d (kept ++ e :: rest))
    (cursor : d.CommandList.currentNode = e.1) :
    ∃ d' kept', d.removeHere name e.2 = some d' ∧ kept' = kept ++ [e].filter (fun x => !named d name x) ∧
      Listed d' (kept' ++ rest) ∧ Behind d' kept' ∧ Removed name [e] d d' := by
  have inside : e ∈ kept ++ e :: rest := by simp
  obtain ⟨cmd,at_e⟩ := isSome_iff_exists.mp (listed.live e inside)
  have distinct := listed.distinct
  rw [map_append,map_cons] at distinct
  have ringed := listed.ringed
  rw [map_append,map_cons] at ringed
  by_cases goes : cmd.command = name
  · obtain ⟨list,removed,left,data⟩ := Container.remove_ctnr_at ringed cursor
    have is_named : named d name e = true := by simp [named,at_e,goes]
    have apart : ∀ x ∈ kept ++ rest, x.2 ≠ e.2 := by
      intro x there same
      rw [nodup_middle,← map_append,nodup_cons] at distinct
      exact distinct.1 (same ▸ mem_map_of_mem there)
    have nodes : ∀ x ∈ kept ++ rest, x.1 ≠ e.1 := by
      intro x there same
      have nodup := (nodup_cons.mp ringed.nodup).2
      rw [nodup_middle,← map_append,nodup_cons] at nodup
      exact nodup.1 (same ▸ mem_map_of_mem there)
    have part : ∀ x ∈ kept ++ rest, x ∈ kept ++ e :: rest := by
      intro x there
      rcases mem_append.mp there with before | after
      · exact mem_append_left _ before
      · exact mem_append_right _ (mem_cons_of_mem _ after)
    have performed : d.removeHere name e.2 =
        some { d with CommandList := list, commands := update d.commands e.2 none } := by
      rw [Daemon.removeHere,at_e,removed]
      simp [goes]
    refine ⟨_,kept,performed,by simp [is_named],⟨?_,?_,?_,?_,?_,?_,?_⟩,?_,?_,?_,rfl⟩
    · rw [map_append]
      exact left.ringed
    · intro x there
      dsimp only
      rw [data x.1 (nodes x there)]
      exact listed.data x (part x there)
    · intro x there
      dsimp only
      rw [update_of_ne (apart x there)]
      exact listed.live x (part x there)
    · intro x there other at_x
      dsimp only at at_x
      rw [update_of_ne (apart x there)] at at_x
      exact listed.modules x (part x there) other at_x
    · rw [nodup_middle,← map_append,nodup_cons] at distinct
      exact distinct.2
    · intro a later
      obtain ⟨heap,unused⟩ := listed.unused a later
      refine ⟨remove_ctnr_unused removed heap,?_⟩
      dsimp only
      by_cases here : a = e.2
      · rw [here,update_self]
      · rw [update_of_ne here]
        exact unused
    · have few := listed.few
      simp only [length_append,length_cons] at few ⊢
      omega
    · rw [Behind,left.points,left.root]
    · intro a other
      dsimp only
      rw [update_of_ne]
      simpa [is_named] using other
    · intro x there _
      rw [mem_singleton.mp there]
      exact update_self ..
  · have other : named d name e = false := by simp [named,at_e,goes]
    have split : kept ++ e :: rest = (kept ++ [e]) ++ rest := by simp
    refine ⟨d,kept ++ [e],?_,by simp [other],by rwa [← split],?_,fun _ _ => rfl,?_,rfl⟩
    · rw [Daemon.removeHere,at_e]
      simp [goes]
    · rw [Behind,map_append,map_cons,map_nil,getLastD_concat]
      exact cursor
    · intro x there is_named
      rw [mem_singleton.mp there,other] at is_named
      cases is_named

theorem Removed.named_same (removed : Removed name entries d d') {x : Nat × Nat} (apart : ∀ e ∈ entries, x.2 ≠ e.2) :
    named d' name x = named d name x := by
  rw [named,named,removed.same]
  intro inside
  obtain ⟨e,there,same⟩ := mem_map.mp inside
  exact apart e (mem_filter.mp there).1 same.symm

theorem Removed.cons {d₁ : Daemon M E} (first : Removed name [e] d d₁) (later : Removed name rest d₁ d')
    (apart : ∀ x ∈ rest, x.2 ≠ e.2) : Removed name (e :: rest) d d' := by
  have same_named : ∀ x ∈ rest, named d₁ name x = named d name x := by
    intro x there
    apply first.named_same
    intro y here
    rw [mem_singleton.mp here]
    exact apart x there
  have same_filter : rest.filter (named d₁ name) = rest.filter (named d name) := filter_congr same_named
  have whole : (e :: rest).filter (named d name) = [e].filter (named d name) ++ rest.filter (named d name) := by
    rw [← filter_append]
    rfl
  refine ⟨?_,?_,later.fresh.trans first.fresh⟩
  · intro a other
    rw [whole,map_append,mem_append,not_or,← same_filter] at other
    rw [later.same a other.2,first.same a other.1]
  · intro x there is_named
    rcases mem_cons.mp there with rfl | after
    · rw [later.same]
      · exact first.gone x (by simp) is_named
      · intro inside
        obtain ⟨y,among,same⟩ := mem_map.mp inside
        exact apart y (mem_filter.mp among).1 same
    · apply later.gone x after
      rwa [same_named x after]

theorem removeFrom_listed (name : List Char) {fuel : Nat} (kept : List (Nat × Nat)) (listed : Listed d (kept ++ e :: rest))
    (cursor : d.CommandList.currentNode = e.1) (enough : rest.length+1 < fuel) :
    ∃ d', d.removeFrom name fuel (some e.2) = some d' ∧ Removed name (e :: rest) d d' ∧
      Listed d' (kept ++ (e :: rest).filter fun x => !named d name x) := by
  induction rest generalizing d kept e fuel with
  | nil =>
    obtain ⟨fuel,rfl⟩ : ∃ f, fuel = f+2 := ⟨fuel-2,by simp at enough; omega⟩
    obtain ⟨d₁,kept',here,rfl,listed₁,cursor₁,removed⟩ := removeHere_listed name listed cursor
    rw [append_nil] at listed₁
    have went := next_end listed₁ cursor₁
    refine ⟨d₁,?_,removed,listed₁⟩
    simp only [Daemon.removeFrom,here,went,bind_eq_bind,bind_some]
  | cons x rest ih =>
    obtain ⟨fuel,rfl⟩ : ∃ f, fuel = f+1 := ⟨fuel-1,by omega⟩
    have distinct := listed.distinct
    rw [map_append,map_cons,nodup_append] at distinct
    have apart : ∀ y ∈ x :: rest, y.2 ≠ e.2 := by
      intro y there same
      exact (nodup_cons.mp distinct.2.1).1 (same ▸ mem_map_of_mem there)
    obtain ⟨d₁,kept',here,rfl,listed₁,cursor₁,removed⟩ := removeHere_listed name listed cursor
    have went := next_entry listed₁ cursor₁
    have less : rest.length+1 < fuel := by
      simp only [length_cons] at enough
      omega
    obtain ⟨d',rest_run,later,listed'⟩ := ih _ (listed₁.setCurrent x.1) rfl less
    refine ⟨d',?_,removed.cons ⟨later.same,later.gone,later.fresh⟩ apart,?_⟩
    · simp only [Daemon.removeFrom,here,went,bind_eq_bind,bind_some]
      exact rest_run
    · have same : (x :: rest).filter (fun y => !named d₁ name y) = (x :: rest).filter fun y => !named d name y := by
        apply filter_congr
        intro y there
        rw [removed.named_same fun z is => by rw [mem_singleton.mp is]; exact apart y there]
      have whole : (e :: x :: rest).filter (fun y => !named d name y) =
          [e].filter (fun y => !named d name y) ++ (x :: rest).filter fun y => !named d name y := by
        rw [← filter_append]
        rfl
      rw [whole,← same,← append_assoc]
      exact listed'

/-- After `removeCommand` no command has the name, and the others are as before. -/
theorem removeCommand_listed (name : List Char) {fuel : Nat} (listed : Listed d entries) (enough : entries.length < fuel) :
    ∃ d', d.removeCommand fuel name = some d' ∧ Removed name entries d d' ∧
      Listed d' (entries.filter fun x => !named d name x) := by
  cases entries with
  | nil =>
    obtain ⟨fuel,rfl⟩ : ∃ f, fuel = f+1 := ⟨fuel-1,by simp at enough; omega⟩
    have first := Container.first_ctnr_nil listed.ringed
    refine ⟨{ d with ReconfigureFlag := true },?_,⟨fun _ _ => rfl,(fun e inside => nomatch inside),rfl⟩,?_⟩
    · simp only [Daemon.removeCommand,first,Daemon.removeFrom,bind_eq_bind,bind_some]
    · exact ⟨listed.ringed,listed.data,listed.live,listed.modules,listed.distinct,listed.unused,listed.few⟩
  | cons e rest =>
    have first := Container.first_ctnr_cons listed.ringed
    rw [listed.data e mem_cons_self] at first
    obtain ⟨d',run,removed,left⟩ := removeFrom_listed name [] (listed.setCurrent e.1) rfl enough
    refine ⟨{ d' with ReconfigureFlag := true },?_,⟨removed.same,removed.gone,removed.fresh⟩,?_⟩
    · simp only [Daemon.removeCommand,first,bind_eq_bind,bind_some]
      rw [run]
      rfl
    · exact ⟨left.ringed,left.data,left.live,left.modules,left.distinct,left.unused,left.few⟩

/-- What is removed is freed, everything else is still registered, and nothing that has been freed comes back. -/
structure Called (removes : List Char → Prop) (d : Daemon M E) (entries : List (Nat × Nat)) (d' : Daemon M E)
    (entries' : List (Nat × Nat)) : Prop where
  listed : Listed d' entries'
  kept : ∀ e ∈ entries, ∀ cmd, d.commands e.2 = some cmd → ¬ removes cmd.command →
    e ∈ entries' ∧ d'.commands e.2 = some cmd
  gone : ∀ e ∈ entries, ∀ cmd, d.commands e.2 = some cmd → removes cmd.command → d'.commands e.2 = none
  stays : ∀ a < d.fresh, d.commands a = none → d'.commands a = none
  fresh : d.fresh ≤ d'.fresh

theorem Listed.below (listed : Listed d entries) (inside : e ∈ entries) : e.2 < d.fresh := by
  by_contra above
  have live := listed.live e inside
  rw [(listed.unused e.2 (by omega)).2] at live
  cases live

theorem Called.trans {removes removes' : List Char → Prop} {d₁ : Daemon M E} {entries₁ entries' : List (Nat × Nat)}
    (listed : Listed d entries) (first : Called removes d entries d₁ entries₁)
    (later : Called removes' d₁ entries₁ d' entries') :
    Called (fun name => removes name ∨ removes' name) d entries d' entries' := by
  refine ⟨later.listed,?_,?_,?_,first.fresh.trans later.fresh⟩
  · intro e inside cmd at_e spared
    obtain ⟨there,still⟩ := first.kept e inside cmd at_e fun removed => spared (Or.inl removed)
    exact later.kept e there cmd still fun removed => spared (Or.inr removed)
  · intro e inside cmd at_e removed
    by_cases before : removes cmd.command
    · have below := listed.below inside
      exact later.stays e.2 (by have grows := first.fresh; omega) (first.gone e inside cmd at_e before)
    · obtain ⟨there,still⟩ := first.kept e inside cmd at_e before
      exact later.gone e there cmd still (removed.resolve_left before)
  · intro a below none
    exact later.stays a (by have grows := first.fresh; omega) (first.stays a below none)

theorem Called.of_iff {removes removes' : List Char → Prop} {entries' : List (Nat × Nat)}
    (called : Called removes d entries d' entries') (same : ∀ name, removes name ↔ removes' name) :
    Called removes' d entries d' entries' := by
  obtain rfl : removes = removes' := funext fun name => propext (same name)
  exact called

theorem called_nothing (listed : Listed d entries) : Called (fun _ => False) d entries d entries :=
  ⟨listed,fun _ inside _ at_e _ => ⟨inside,at_e⟩,fun _ _ _ _ removed => removed.elim,fun _ _ none => none,le_refl _⟩

theorem push_called (listed : Listed d entries) (cmd : Command M E) (module : cmd.isMonitor → cmd.sm.isSome) :
    ∃ d' entries', d.push cmd = some d' ∧ Called (fun _ => False) d entries d' entries' := by
  obtain ⟨d',pushed,listed',same⟩ := push_listed listed module
  refine ⟨d',_,pushed,listed',?_,fun _ _ _ _ removed => removed.elim,?_,?_⟩
  · intro e inside other at_e _
    have below := listed.below inside
    exact ⟨mem_append_left _ inside,by rw [same e.2 (by omega)]; exact at_e⟩
  · intro a below none
    rw [same a (by omega)]
    exact none
  · obtain ⟨list,_,made⟩ := bind_eq_some_iff.mp pushed
    obtain rfl := some.inj made
    dsimp only
    omega

theorem removeCommand_called (name : List Char) (fuel : Nat) (listed : Listed d entries) (enough : entries.length < fuel) :
    ∃ d' entries', d.removeCommand fuel name = some d' ∧ Called (· = name) d entries d' entries' ∧
      entries'.length ≤ entries.length := by
  obtain ⟨d',run,removed,listed'⟩ := removeCommand_listed name listed enough
  refine ⟨d',_,run,⟨listed',?_,?_,?_,removed.fresh.ge⟩,length_filter_le _ _⟩
  · intro e inside cmd at_e other
    have not_named : named d name e = false := by simp [named,at_e,other]
    refine ⟨mem_filter.mpr ⟨inside,by simp [not_named]⟩,?_⟩
    rw [removed.same]
    · exact at_e
    · intro among
      obtain ⟨x,there,same⟩ := mem_map.mp among
      have is_named := (mem_filter.mp there).2
      rw [named,same,at_e] at is_named
      simp [other] at is_named
  · intro e inside cmd at_e same
    exact removed.gone e inside (by simp [named,at_e,same])
  · intro a _ none
    rw [removed.same]
    · exact none
    · intro among
      obtain ⟨x,there,same⟩ := mem_map.mp among
      have is_named := (mem_filter.mp there).2
      rw [named,same,none] at is_named
      cases is_named

theorem call_called (listed : Listed d entries) (call : Call M E) :
    ∃ d' entries', d.call call = some d' ∧ Called (fun name => call.Removes name) d entries d' entries' := by
  have few := listed.few
  cases call with
  | registerCommand command ex =>
    obtain ⟨d',entries',pushed,called⟩ := push_called listed ⟨command,ex,false,none⟩ (by simp)
    refine ⟨{ d' with ReconfigureFlag := true },entries',?_,?_,called.kept,called.gone,called.stays,called.fresh⟩
    · rw [Daemon.call,Daemon.registerCommand,pushed]
      rfl
    · have listed' := called.listed
      exact ⟨listed'.ringed,listed'.data,listed'.live,listed'.modules,listed'.distinct,listed'.unused,listed'.few⟩
  | removeCommand command =>
    obtain ⟨d',entries',run,called,_⟩ := removeCommand_called command (d.fresh+1) listed (by omega)
    exact ⟨d',entries',run,called.of_iff fun name => eq_comm⟩
  | registerMonitor command ex iq sm =>
    obtain ⟨d₁,entries₁,pushed,first⟩ := push_called listed ⟨command,ex,true,some sm⟩ (by simp)
    obtain ⟨d',entries',pushed',later⟩ := push_called first.listed ⟨command ++ ['?'],iq,false,some sm⟩ (by simp)
    refine ⟨d',entries',?_,(first.trans listed later).of_iff fun name => or_self_iff⟩
    rw [Daemon.call,Daemon.registerAnyMonitor,pushed]
    exact pushed'
  | removeMonitor command =>
    obtain ⟨d₁,entries₁,run,first,fewer⟩ := removeCommand_called command (d.fresh+1) listed (by omega)
    obtain ⟨d',entries',run',later,_⟩ := removeCommand_called (command ++ ['?']) (d.fresh+1) first.listed (by omega)
    refine ⟨d',entries',?_,(first.trans listed later).of_iff fun name => or_congr eq_comm eq_comm⟩
    rw [Daemon.call,Daemon.removeMonitor,run]
    exact run'

theorem calls_called (listed : Listed d entries) (list : List (Call M E)) :
    ∃ d' entries', d.calls list = some d' ∧
      Called (fun name => ∃ call ∈ list, call.Removes name) d entries d' entries' := by
  induction list generalizing d entries with
  | nil => exact ⟨d,entries,rfl,(called_nothing listed).of_iff (by simp)⟩
  | cons call list ih =>
    obtain ⟨d₁,entries₁,run,first⟩ := call_called listed call
    obtain ⟨d',entries',rest,later⟩ := ih first.listed
    refine ⟨d',entries',?_,(first.trans listed later).of_iff (by simp)⟩
    rw [Daemon.calls,foldlM_cons,run]
    exact rest

theorem Listed.unique {entries' : List (Nat × Nat)} (listed : Listed d entries) (listed' : Listed d entries') :
    entries = entries' := by
  have nodes := listed.ringed.unique listed'.ringed
  apply ext_getElem?
  intro i
  have at_i := congrArg (·[i]?) nodes
  simp only [getElem?_map] at at_i
  cases here : entries[i]? with
  | none =>
    rw [here] at at_i
    cases there : entries'[i]? with
    | none => rfl
    | some e => rw [there] at at_i; cases at_i
  | some e =>
    rw [here] at at_i
    cases there : entries'[i]? with
    | none => rw [there] at at_i; cases at_i
    | some e' =>
      rw [there] at at_i
      have node : e.1 = e'.1 := some.inj at_i
      have data := listed.data e (mem_of_getElem? here)
      have data' := listed'.data e' (mem_of_getElem? there)
      rw [node,data'] at data
      exact congrArg some (Prod.ext node (some.inj data).symm)

theorem matches_iff (name command : List Char) :
    (name.take (word command).length = command.take (word command).length ∧ name[(word command).length]? = none) ↔
      name = word command := by
  have start : command.take (word command).length = word command :=
    (prefix_iff_eq_take.mp (List.takeWhile_prefix _)).symm
  rw [start,getElem?_eq_none_iff]
  constructor
  · rintro ⟨same,short⟩
    rwa [take_of_length_le short] at same
  · intro same
    rw [same]
    exact ⟨take_length,le_refl _⟩

/-- What the loop has come to. -/
def Finds (d : Daemon M E) (name : List Char) (entries : List (Nat × Nat)) : Option Nat → Prop
  | none => ∀ x ∈ entries, named d name x = false
  | some p => ∃ before x after, entries = before ++ x :: after ∧ x.2 = p ∧ named d name x ∧
      ∀ b ∈ before, named d name b = false

theorem Finds.cons {found : Option Nat} (finds : Finds d name rest found) (other : named d name e = false) :
    Finds d name (e :: rest) found := by
  cases found with
  | none =>
    intro x inside
    rcases mem_cons.mp inside with rfl | later
    · exact other
    · exact finds x later
  | some p =>
    obtain ⟨before,x,after,rfl,at_p,is_named,earlier⟩ := finds
    refine ⟨e :: before,x,after,rfl,at_p,is_named,?_⟩
    intro b inside
    rcases mem_cons.mp inside with rfl | later
    · exact other
    · exact earlier b later

theorem findFrom_listed (command : List Char) (fuel : Nat) (kept : List (Nat × Nat)) (listed : Listed d (kept ++ e :: rest))
    (cursor : d.CommandList.currentNode = e.1) (enough : rest.length+1 < fuel) :
    ∃ a found, d.findFrom command (word command).length fuel (some e.2) =
        some ({ d with CommandList := d.CommandList.setCurrent a },found) ∧ Finds d (word command) (e :: rest) found := by
  induction rest generalizing d kept e fuel with
  | nil =>
    obtain ⟨fuel,rfl⟩ : ∃ f, fuel = f+2 := ⟨fuel-2,by simp at enough; omega⟩
    obtain ⟨cmd,at_e⟩ := isSome_iff_exists.mp (listed.live e (by simp))
    by_cases here : cmd.command = word command
    · refine ⟨d.CommandList.currentNode,some e.2,?_,[],e,[],rfl,rfl,by simp [named,at_e,here],by simp⟩
      simp only [Daemon.findFrom,at_e,bind_eq_bind,bind_some,if_pos ((matches_iff _ _).mpr here)]
      rfl
    · have behind : Behind d (kept ++ [e]) := by simp [Behind,cursor]
      have went := next_end listed behind
      refine ⟨d.CommandList.currentNode,none,?_,by simp [Finds,named,at_e,here]⟩
      simp only [Daemon.findFrom,at_e,bind_eq_bind,bind_some, if_neg fun same => here ((matches_iff _ _).mp same),went]
      rfl
  | cons x rest ih =>
    obtain ⟨fuel,rfl⟩ : ∃ f, fuel = f+1 := ⟨fuel-1,by omega⟩
    obtain ⟨cmd,at_e⟩ := isSome_iff_exists.mp (listed.live e (by simp))
    by_cases here : cmd.command = word command
    · refine ⟨d.CommandList.currentNode,some e.2,?_,[],e,x :: rest,rfl,rfl,by simp [named,at_e,here],by simp⟩
      simp only [Daemon.findFrom,at_e,bind_eq_bind,bind_some,if_pos ((matches_iff _ _).mpr here)]
      rfl
    · have behind : Behind d (kept ++ [e]) := by simp [Behind,cursor]
      have split : kept ++ e :: x :: rest = (kept ++ [e]) ++ x :: rest := by simp
      rw [split] at listed
      have went := next_entry listed behind
      have less : rest.length+1 < fuel := by
        simp only [length_cons] at enough
        omega
      obtain ⟨a,found,run,finds⟩ := ih fuel (kept ++ [e]) (listed.setCurrent x.1) rfl less
      refine ⟨a,found,?_,Finds.cons finds (by simp [named,at_e,here])⟩
      simp only [Daemon.findFrom,at_e,bind_eq_bind,bind_some, if_neg fun same => here ((matches_iff _ _).mp same),went]
      exact run

theorem find_listed (command : List Char) (listed : Listed d entries) :
    ∃ a found, d.find command (word command).length = some ({ d with CommandList := d.CommandList.setCurrent a },found) ∧
      Finds d (word command) entries found := by
  have few := listed.few
  cases entries with
  | nil =>
    have first := Container.first_ctnr_nil listed.ringed
    refine ⟨d.CommandList.currentNode,none,?_,fun e inside => nomatch inside⟩
    simp only [Daemon.find,first,Daemon.findFrom,bind_eq_bind,bind_some]
    rfl
  | cons e rest =>
    have first := Container.first_ctnr_cons listed.ringed
    rw [listed.data e mem_cons_self] at first
    rw [length_cons] at few
    obtain ⟨a,found,run,finds⟩ := findFrom_listed command (d.fresh+1) [] (listed.setCurrent e.1) rfl (by omega)
    refine ⟨a,found,?_,finds⟩
    simp only [Daemon.find,first,bind_eq_bind,bind_some]
    exact run

/-- A daemon as it is after any calls. -/
structure Server (M E : Type) where
  daemon : Daemon M E
  listed : ∃ entries, Listed daemon entries

theorem executeCommand_eq (callbacks : Callbacks M E) (now : UInt64) (command : List Char) (any : word command ≠ [])
    {found : Option Nat} (find : d.find command (word command).length = some (d',found)) :
    d.executeCommand callbacks now command =
      found.elim (some ⟨d',[],[.unknownCommand]⟩) (d'.execute callbacks now) := by
  have positive : ¬ (word command).length ≤ 0 := by
    rw [Nat.le_zero,length_eq_zero_iff]
    exact any
  rw [Daemon.executeCommand,← word,if_neg positive,find]
  cases found <;> rfl

theorem First.unique {cmd cmd' : Command M E} (first : First d name cmd) (first' : First d name cmd') : cmd = cmd' := by
  obtain ⟨before,e,after,listed,at_e,named_e,earlier⟩ := first
  obtain ⟨before',e',after',listed',at_e',named_e',earlier'⟩ := first'
  have same := listed.unique listed'
  rcases append_eq_append_iff.mp same with ⟨more,longer,tail⟩ | ⟨more,longer,tail⟩
  · cases more with
    | nil =>
      obtain ⟨rfl,_⟩ := cons.inj tail
      exact some.inj (at_e.symm.trans at_e')
    | cons x more =>
      obtain ⟨rfl,_⟩ := cons.inj tail
      exact absurd named_e (earlier' e (by rw [longer]; simp) cmd at_e)
  · cases more with
    | nil =>
      obtain ⟨rfl,_⟩ := cons.inj tail
      exact some.inj (at_e.symm.trans at_e')
    | cons x more =>
      obtain ⟨rfl,_⟩ := cons.inj tail
      exact absurd named_e' (earlier e' (by rw [longer]; simp) cmd' at_e')

theorem update_listed (callbacks : Callbacks M E) (now : UInt64) (listed : Listed d entries) (inside : e ∈ entries)
    {cmd : Command M E} (at_e : d.commands e.2 = some cmd) :
    ∃ d' entries', ∃ list : List (Call M E), d.update callbacks now cmd = some d' ∧
      Called (fun name => ∃ call ∈ list, call.Removes name) d entries d' entries' ∧
      ∀ call, call ∈ list ↔ cmd.isMonitor ∧ ∃ sm ∈ cmd.sm, UPDATEINTERVAL ≤ now-d.timeCentiSeconds sm ∧
        ∃ calls ∈ callbacks.updateCommand sm, call ∈ calls := by
  have nothing : Called (fun name => ∃ call ∈ ([] : List (Call M E)), call.Removes name) d entries d entries :=
    (called_nothing listed).of_iff (by simp)
  cases monitor : cmd.isMonitor with
  | false => exact ⟨d,entries,[],by simp [Daemon.update,monitor],nothing,by simp⟩
  | true =>
    obtain ⟨sm,module⟩ := isSome_iff_exists.mp (listed.modules e inside cmd at_e monitor)
    cases update : callbacks.updateCommand sm with
    | none => exact ⟨d,entries,[],by simp [Daemon.update,monitor,module,update],nothing,by simp [module,update]⟩
    | some list =>
      by_cases due : UPDATEINTERVAL ≤ now-d.timeCentiSeconds sm
      · have listed' : Listed { d with timeCentiSeconds := Function.update d.timeCentiSeconds sm now } entries :=
          ⟨listed.ringed,listed.data,listed.live,listed.modules,listed.distinct,listed.unused,listed.few⟩
        obtain ⟨d',entries',run,called⟩ := calls_called listed' list
        refine ⟨d',entries',list,?_,⟨called.listed,called.kept,called.gone,called.stays,called.fresh⟩,?_⟩
        · simpa [Daemon.update,monitor,module,update,due] using run
        · simp [module,update,due]
      · exact ⟨d,entries,[],by simp [Daemon.update,monitor,module,update,due],nothing,by simp [module,due]⟩

/-- A command is executed right exactly if no update removes what has been found. -/
theorem executeCommand_iff (callbacks : Callbacks M E) (now : UInt64) (s : Server M E) (command : List Char) :
    Right callbacks now s.daemon command ↔ Spared callbacks now s.daemon command := by
  obtain ⟨entries,listed⟩ := s.listed
  by_cases any : word command = []
  · have blank : s.daemon.executeCommand callbacks now command = some ⟨s.daemon,[],[]⟩ := by
      rw [Daemon.executeCommand,← word,any]
      rfl
    refine iff_of_true ⟨?_,?_,?_⟩ fun some_word => absurd any some_word
    · rw [blank]
      rfl
    · intro answer ran
      obtain rfl := some.inj (blank.symm.trans ran)
      simp
    · intro answer ran unknown
      obtain rfl := some.inj (blank.symm.trans ran)
      cases unknown
  · obtain ⟨a,found,find,finds⟩ := find_listed command listed
    have run := executeCommand_eq callbacks now command any find
    have walked := listed.setCurrent a
    cases found with
    | none =>
      have unknown : ∀ p cmd, Registered s.daemon p cmd → cmd.command ≠ word command := by
        rintro p cmd ⟨entries',listed',inside,at_p⟩
        obtain rfl := listed.unique listed'
        obtain ⟨e,there,rfl⟩ := mem_map.mp inside
        have other := finds e there
        rw [named,at_p] at other
        simpa using other
      refine iff_of_true ⟨?_,?_,?_⟩ ?_
      · rw [run]
        rfl
      · intro answer ran
        obtain rfl := some.inj (run.symm.trans ran)
        simp
      · exact fun _ _ _ => unknown
      · rintro _ cmd ⟨before,e,after,listed',at_e,same,_⟩
        exact absurd same (unknown e.2 cmd ⟨_,listed',mem_map_of_mem (by simp),at_e⟩)
    | some p =>
      obtain ⟨before,e,after,rfl,rfl,is_named,earlier⟩ := finds
      obtain ⟨cmd,at_e⟩ := isSome_iff_exists.mp (listed.live e (by simp))
      have same : cmd.command = word command := by simpa [named,at_e] using is_named
      have first : First s.daemon (word command) cmd := by
        refine ⟨before,e,after,listed,at_e,same,?_⟩
        intro b inside other at_b
        have is_other := earlier b inside
        rw [named,at_b] at is_other
        simpa using is_other
      obtain ⟨d₁,entries₁,list,updated,called,due⟩ := update_listed callbacks now walked (e := e) (by simp) at_e
      have spared_iff : Spared callbacks now s.daemon command ↔ ¬ ∃ call ∈ list, call.Removes (word command) := by
        constructor
        · rintro spared ⟨call,inside,removes⟩
          obtain ⟨monitor,sm,module,late,calls,update,there⟩ := (due call).mp inside
          exact spared any cmd first monitor sm module late calls update call there removes
        · intro kept _ cmd' first' monitor sm module late calls update call there removes
          obtain rfl := first.unique first'
          exact kept ⟨call,(due call).mpr ⟨monitor,sm,module,late,calls,update,there⟩,removes⟩
      rw [spared_iff]
      constructor
      · rintro right ⟨call,inside,removes⟩
        have freed := called.gone e (by simp) cmd at_e ⟨call,inside,by rwa [same]⟩
        have nothing : s.daemon.executeCommand callbacks now command = none := by
          rw [run,elim_some,Daemon.execute]
          simp [at_e,updated,freed]
        have answers := right.answers
        rw [nothing] at answers
        cases answers
      · intro kept
        obtain ⟨there,still⟩ := called.kept e (by simp) cmd at_e (by rwa [same])
        obtain ⟨d₂,entries₂,ran_calls,_⟩ := calls_called called.listed (callbacks.executor cmd.ex)
        have answer : s.daemon.executeCommand callbacks now command = some
            ⟨{ d₂ with ReconfigureFlag := false },[⟨cmd.ex,e.2,d₁⟩],if d₂.ReconfigureFlag then [.reconfigure] else []⟩ := by
          rw [run,elim_some,Daemon.execute]
          simp [at_e,updated,still,ran_calls]
        refine ⟨by rw [answer]; rfl,?_,?_⟩
        · intro found ran
          obtain rfl := some.inj (answer.symm.trans ran)
          refine ⟨le_refl 1,?_⟩
          intro x inside
          obtain rfl := mem_singleton.mp inside
          exact ⟨cmd,⟨entries₁,called.listed,mem_map_of_mem there,still⟩,same,rfl⟩
        · intro found ran unknown
          obtain rfl := some.inj (answer.symm.trans ran)
          dsimp only at unknown
          split at unknown <;> simp at unknown

/-- A daemon without commands. -/
def Daemon.start : Daemon M E := ⟨fun _ => none,Container.new_ctnr 0,1,fun _ => 0,false⟩

theorem start_listed : Listed (Daemon.start : Daemon M E) [] := by
  refine ⟨Container.new_ctnr_ringed 0,?_,?_,?_,nodup_nil,?_,by simp⟩
  · simp
  · simp
  · simp
  · intro a later
    refine ⟨?_,rfl⟩
    have positive : 1 ≤ a := later
    have other : a ≠ 0 := by omega
    simp [Daemon.start,Container.new_ctnr,other]

/-- A monitor whose module removes it when it is updated. -/
theorem removed_executed : ¬ ∀ (callbacks : Callbacks Nat Nat) (now : UInt64) (s : Server Nat Nat) (command : List Char),
    Right callbacks now s.daemon command := by
  intro right
  let callbacks : Callbacks Nat Nat := ⟨fun _ => some [.removeMonitor ['c','p','u']],fun _ => []⟩
  obtain ⟨d,entries,run,called⟩ :=
    calls_called start_listed ([.registerMonitor ['c','p','u'] 0 1 0] : List (Call Nat Nat))
  have nothing : ((Daemon.start.calls ([.registerMonitor ['c','p','u'] 0 1 0] : List (Call Nat Nat))).bind fun d =>
      d.executeCommand callbacks 5 ['c','p','u']).isSome = false := by decide +kernel
  rw [run] at nothing
  have answers := (right callbacks 5 ⟨d,entries,called.listed⟩ ['c','p','u']).answers
  rw [bind_some] at nothing
  rw [nothing] at answers
  cases answers

end KdeWorkspace.CommandExecution
