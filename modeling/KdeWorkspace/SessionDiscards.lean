import KdeWorkspace.SessionSteps

/-!
The commands that discard what clients have saved. When a session is stored, the commands of the session
stored before are executed, but for those that a client has now; `storeSession_executed` says this of
every one of them. When a session is not stored, the commands of the clients are executed, but for those
that the stored session has: there `discardSession` takes the commands the other way round, see
`discardSession_executed` and `discards_right_iff`.
-/
namespace KdeWorkspace.SessionServer.Server
open List

variable (env : Env) (s : Server)

/-- The commands of the entries of the stored session, in their order. -/
def storedCommands : List (List String) :=
  (List.range' 1 (s.config s.sessionGroup).count).map fun i => ((s.config s.sessionGroup).entry i).discardCommand

def clientCommands : List (List String) := s.clients.map Client.discardCommand

/-- The commands that are there and that none of `kept` is. -/
def unreferenced (commands kept : List (List String)) : List (List String) :=
  commands.filter fun command => command ≠ [] ∧ command ∉ kept

theorem executeCommands_executed (commands : List (List String)) :
    (commands.foldl executeCommand s).executed = s.executed ++ commands.filter (· ≠ []) := by
  induction commands generalizing s with
  | nil => simp
  | cons command commands ih =>
    rw [foldl_cons,ih]
    by_cases empty : command = []
    · simp [executeCommand,empty]
    · simp [executeCommand,empty]

/-- The commands that `storeSession` looks for. -/
theorem stored_commands (old : Group) (indices : List Nat) :
    (indices.filterMap fun i =>
      if (old.entry i).discardCommand = [] ∨ ∃ c ∈ s.clients, (old.entry i).discardCommand = c.discardCommand then none
      else some (old.entry i).discardCommand) =
      unreferenced (indices.map fun i => (old.entry i).discardCommand) s.clientCommands := by
  unfold unreferenced
  induction indices with
  | nil => rfl
  | cons i indices ih =>
    rw [filterMap_cons,ih,map_cons,filter_cons]
    have used : (old.entry i).discardCommand ∈ s.clientCommands ↔
        ∃ c ∈ s.clients, (old.entry i).discardCommand = c.discardCommand := by
      simp only [clientCommands,mem_map]
      exact ⟨fun ⟨c,mem,same⟩ => ⟨c,mem,same.symm⟩,fun ⟨c,mem,same⟩ => ⟨c,mem,same.symm⟩⟩
    by_cases empty : (old.entry i).discardCommand = []
    · simp [empty]
    · by_cases referenced : ∃ c ∈ s.clients, (old.entry i).discardCommand = c.discardCommand
      · simp [empty,referenced,used.mpr referenced]
      · have free : (old.entry i).discardCommand ∉ s.clientCommands := fun mem => referenced (used.mp mem)
        simp [empty,referenced,free]

theorem storeSession_executed :
    (s.storeSession env).executed = s.executed ++ unreferenced s.storedCommands s.clientCommands := by
  have commands := s.stored_commands (s.config s.sessionGroup) (range' 1 (s.config s.sessionGroup).count)
  have executed := s.executeCommands_executed (unreferenced s.storedCommands s.clientCommands)
  have given : (unreferenced s.storedCommands s.clientCommands).filter (· ≠ []) =
      unreferenced s.storedCommands s.clientCommands := by
    rw [filter_eq_self]
    intro command mem
    have kept := (mem_filter.mp mem).2
    rw [decide_eq_true_iff] at kept ⊢
    exact kept.1
  rw [given] at executed
  rw [← executed]
  dsimp only [storeSession]
  rw [commands]
  split <;> rfl

theorem discardSession_executed :
    s.discardSession.executed =
      s.executed ++ s.clientCommands.filter fun command => command ≠ [] ∧ command ∈ s.storedCommands := by
  have stored : ∀ command, (∃ i ∈ range' 1 (s.config s.sessionGroup).count,
      ((s.config s.sessionGroup).entry i).discardCommand = command) ↔ command ∈ s.storedCommands :=
    fun command => mem_map.symm
  unfold discardSession clientCommands
  generalize s.clients.map Client.discardCommand = commands
  revert stored
  generalize s.config s.sessionGroup = old
  generalize s.storedCommands = known
  intro stored
  induction commands generalizing s with
  | nil => simp
  | cons command commands ih =>
    rw [foldl_cons,ih,filter_cons]
    by_cases empty : command = []
    · simp [empty]
    · by_cases same : command ∈ known
      · have there : ∃ i ∈ range' 1 old.count, (old.entry i).discardCommand = command := (stored command).mpr same
        simp only [if_neg empty,if_pos there]
        simp [executeCommand,empty,same]
      · have none : ¬ ∃ i ∈ range' 1 old.count, (old.entry i).discardCommand = command :=
          fun there => same ((stored command).mp there)
        simp only [if_neg empty,if_neg none]
        simp [same]

/-- Both discard exactly what nothing refers to. -/
def DiscardsRight : Prop :=
  (s.storeSession env).executed = s.executed ++ unreferenced s.storedCommands s.clientCommands ∧
    s.discardSession.executed = s.executed ++ unreferenced s.clientCommands s.storedCommands

theorem filter_both {commands known : List (List String)}
    (same : (commands.filter fun command => command ≠ [] ∧ command ∈ known) = unreferenced commands known) :
    ∀ command ∈ commands, command = [] := by
  intro command mem
  by_contra given
  by_cases referenced : command ∈ known
  · have chosen : command ∈ commands.filter fun command => command ≠ [] ∧ command ∈ known :=
      mem_filter.mpr ⟨mem,by simp [given,referenced]⟩
    rw [same] at chosen
    have free := (mem_filter.mp chosen).2
    rw [decide_eq_true_iff] at free
    exact free.2 referenced
  · have chosen : command ∈ unreferenced commands known := mem_filter.mpr ⟨mem,by simp [given,referenced]⟩
    rw [← same] at chosen
    have used := (mem_filter.mp chosen).2
    rw [decide_eq_true_iff] at used
    exact referenced used.2

/-- Nothing that is still referred to is discarded, and everything else is, exactly if no client has a
command: whichever command a client has, `discardSession` does the contrary of what is right. -/
theorem discards_right_iff : s.DiscardsRight env ↔ ∀ c ∈ s.clients, c.discardCommand = [] := by
  constructor
  · rintro ⟨-,discarded⟩ c mem
    rw [discardSession_executed] at discarded
    exact filter_both (append_cancel_left discarded) c.discardCommand (mem_map_of_mem mem)
  · intro empty
    refine ⟨s.storeSession_executed env,?_⟩
    rw [discardSession_executed]
    congr 1
    have nothing : ∀ command ∈ s.clientCommands, command = [] := by
      intro command mem
      obtain ⟨c,member,rfl⟩ := mem_map.mp mem
      exact empty c member
    have first : (s.clientCommands.filter fun command => command ≠ [] ∧ command ∈ s.storedCommands) = [] := by
      rw [filter_eq_nil_iff]
      intro command mem
      simp [nothing command mem]
    have second : unreferenced s.clientCommands s.storedCommands = [] := by
      unfold unreferenced
      rw [filter_eq_nil_iff]
      intro command mem
      simp [nothing command mem]
    rw [first,second]

/-- An application whose saved state the stored session refers to. -/
def keptState : Server :=
  { initial "kwin" ["kwin"] fun _ =>
      { count := 1, entry := fun _ => { Entry.missing with program := "app", discardCommand := ["rm","state"] } } with
    clients := [⟨0,some "a","app",["app"],["rm","state"],0,"",false,false,false,false⟩]
    nextClient := 1 }

/-- The state that the stored session is restored from is deleted. -/
theorem keptState_deleted :
    keptState.discardSession.executed = [["rm","state"]] ∧ ¬ keptState.DiscardsRight Env.plain := by
  refine ⟨by decide,?_⟩
  intro right
  have empty : ["rm","state"] = [] :=
    filter_both (append_cancel_left ((discardSession_executed _).symm.trans right.2)) _ mem_cons_self
  cases empty

end KdeWorkspace.SessionServer.Server
