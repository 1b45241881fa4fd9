import KdeWorkspace.Relations

/-!
Depth-first search with one set of visited nodes for the whole search, as a
recursive function that hands the set on from call to call (`search`). A node
the search may not enter is left at once. With more fuel than there are nodes
the search finds a node exactly when there is a path to one (`search_iff`).
-/
namespace KdeWorkspace.Search
open Relation
universe u v
variable {α : Type u}

/-- The first call with the result `true` ends the loop over the list. -/
def anyCall {σ : Type v} (call : α → σ → Bool × σ) : List α → σ → Bool × σ
  | [], s => (false,s)
  | a :: rest, s =>
    match call a s with
    | (true,t) => (true,t)
    | (false,t) => anyCall call rest t

variable [DecidableEq α]

/-- The search from a node with the nodes visited so far. -/
def search (enter found : α → Bool) (next : α → List α) : Nat → α → List α → Bool × List α
  | 0, _, set => (false,set)
  | fuel+1, a, set =>
    if !enter a then (false,set)
    else if found a then (true,set)
    else if a ∈ set then (false,set)
    else anyCall (search enter found next fuel) (next a) (set ++ [a])

variable {enter found : α → Bool} {next : α → List α}

/-- One step of a path the search can follow. -/
def Leads (enter : α → Bool) (next : α → List α) (a b : α) : Prop := enter a ∧ b ∈ next a

/-- The node is worked off: nothing is found there, and every node it leads to that can be entered is in the set. -/
private def Finished (enter found : α → Bool) (next : α → List α) (set : List α) (a : α) : Prop :=
  found a = false ∧ ∀ b ∈ next a, enter b → b ∈ set

omit [DecidableEq α] in
private theorem Finished.mono {set more : List α} {a : α} (finished : Finished enter found next set a)
    (subset : set ⊆ more) : Finished enter found next more a :=
  ⟨finished.1,fun b step entered => subset (finished.2 b step entered)⟩

/-- What a search that finds nothing does with the set. -/
private structure Grown (enter found : α → Bool) (next : α → List α) (set more : List α) : Prop where
  subset : set ⊆ more
  finished : ∀ a ∈ more, a ∈ set ∨ Finished enter found next more a

omit [DecidableEq α] in
private theorem Grown.trans {set more most : List α} (first : Grown enter found next set more)
    (second : Grown enter found next more most) : Grown enter found next set most := by
  refine ⟨List.Subset.trans first.subset second.subset,fun a member => ?_⟩
  rcases second.finished a member with earlier | finished
  · exact (first.finished a earlier).imp id (·.mono second.subset)
  · exact Or.inr finished

/-- How many nodes are not visited yet. -/
private def unvisited (nodes set : List α) : Nat := (nodes.filter (fun a => a ∉ set)).length

private theorem unvisited_mono (nodes : List α) {set more : List α} (subset : set ⊆ more) :
    unvisited nodes more ≤ unvisited nodes set := by
  refine (List.monotone_filter_right nodes fun a fresh => ?_).length_le
  have absent := of_decide_eq_true fresh
  exact decide_eq_true fun member => absent (subset member)

private theorem unvisited_append {nodes set : List α} {a : α} (node : a ∈ nodes) (fresh : a ∉ set) :
    unvisited nodes (set ++ [a]) < unvisited nodes set := by
  have shorter : (nodes.filter (fun b => b ∉ set ++ [a])).Sublist (nodes.filter (fun b => b ∉ set)) := by
    refine List.monotone_filter_right nodes fun b absent => ?_
    have := of_decide_eq_true absent
    exact decide_eq_true fun member => this (by simp [member])
  refine lt_of_le_of_ne shorter.length_le fun equal => ?_
  have same := shorter.eq_of_length equal
  have member : a ∈ nodes.filter (fun b => b ∉ set) := by simp [node,fresh]
  rw [← same] at member
  simp at member

/-- What holds of a call on one node: a find is at the end of a path, and a search
    that finds nothing visits the node and works off what it adds. -/
private def CallCorrect (enter found : α → Bool) (next : α → List α) (a : α) (set : List α)
    (result : Bool × List α) : Prop :=
  (result.1 = true → ∃ b, ReflTransGen (Leads enter next) a b ∧ enter b ∧ found b) ∧
  (result.1 = false → Grown enter found next set result.2 ∧ (enter a → a ∈ result.2))

omit [DecidableEq α] in
private theorem anyCall_correct {call : α → List α → Bool × List α} {list set : List α}
    (correct : ∀ a ∈ list, ∀ more, set ⊆ more → CallCorrect enter found next a more (call a more)) :
    ((anyCall call list set).1 = true → ∃ a ∈ list, ∃ b, ReflTransGen (Leads enter next) a b ∧ enter b ∧ found b) ∧
    ((anyCall call list set).1 = false →
      Grown enter found next set (anyCall call list set).2 ∧
      ∀ a ∈ list, enter a → a ∈ (anyCall call list set).2) := by
  induction list generalizing set with
  | nil => exact ⟨by simp [anyCall],fun _ => ⟨⟨List.Subset.refl _,fun a member => Or.inl member⟩,by simp⟩⟩
  | cons a rest ih =>
    have head := correct a List.mem_cons_self set (List.Subset.refl _)
    unfold anyCall
    rcases called : call a set with ⟨hit,more⟩
    rw [called] at head
    cases hit with
    | true =>
      refine ⟨fun _ => ⟨a,List.mem_cons_self,head.1 rfl⟩,fun no => ?_⟩
      cases no
    | false =>
      obtain ⟨grown,visited⟩ := head.2 rfl
      have tail := ih fun b member most subset =>
        correct b (List.mem_cons_of_mem a member) most (List.Subset.trans grown.subset subset)
      refine ⟨fun yes => ?_,fun no => ?_⟩
      · obtain ⟨b,member,path⟩ := tail.1 yes
        exact ⟨b,List.mem_cons_of_mem a member,path⟩
      · obtain ⟨rest_grown,rest_visited⟩ := tail.2 no
        refine ⟨grown.trans rest_grown,fun b member entered => ?_⟩
        rcases List.mem_cons.mp member with rfl | later
        · exact rest_grown.subset (visited entered)
        · exact rest_visited b later entered

private theorem search_correct {nodes : List α} (closed : ∀ a ∈ nodes, ∀ b ∈ next a, b ∈ nodes)
    {fuel : Nat} {a : α} {set : List α} (node : a ∈ nodes) (enough : unvisited nodes set < fuel) :
    CallCorrect enter found next a set (search enter found next fuel a set) := by
  induction fuel generalizing a set with
  | zero => omega
  | succ fuel ih =>
    have unchanged : Grown enter found next set set := ⟨List.Subset.refl _,fun _ member => Or.inl member⟩
    unfold search
    by_cases entered : enter a
    · rw [if_neg (by simp [entered])]
      by_cases here : found a
      · rw [if_pos here]
        exact ⟨fun _ => ⟨a,.refl,entered,here⟩,by simp⟩
      · rw [if_neg here]
        by_cases visited : a ∈ set
        · rw [if_pos visited]
          exact ⟨by simp,fun _ => ⟨unchanged,fun _ => visited⟩⟩
        · rw [if_neg visited]
          have fewer := unvisited_append node visited
          -- every node the search goes on to is called with less fuel and fewer unvisited nodes
          have rest : ∀ b ∈ next a, ∀ more, set ++ [a] ⊆ more →
              CallCorrect enter found next b more (search enter found next fuel b more) := by
            intro b step more subset
            have left := unvisited_mono nodes subset
            exact ih (closed a node b step) (by omega)
          have calls := anyCall_correct rest
          refine ⟨fun yes => ?_,fun no => ?_⟩
          · obtain ⟨b,step,c,path,at_end⟩ := calls.1 yes
            exact ⟨c,.head ⟨entered,step⟩ path,at_end⟩
          · obtain ⟨grown,successors⟩ := calls.2 no
            have member := grown.subset (show a ∈ set ++ [a] by simp)
            refine ⟨⟨fun b earlier => grown.subset (by simp [earlier]),fun b later => ?_⟩,fun _ => member⟩
            rcases grown.finished b later with earlier | finished
            · rcases List.mem_append.mp earlier with earlier | self
              · exact Or.inl earlier
              · rw [List.mem_singleton] at self
                subst self
                exact Or.inr ⟨by simpa using here,successors⟩
            · exact Or.inr finished
    · rw [if_pos (by simp [entered])]
      exact ⟨by simp,fun _ => ⟨unchanged,fun yes => absurd yes entered⟩⟩

omit [DecidableEq α] in
private theorem Grown.not_found {set : List α} {a b : α} (grown : Grown enter found next [] set)
    (start : enter a → a ∈ set) (path : ReflTransGen (Leads enter next) a b) (entered : enter b) : found b = false := by
  have visited : enter b → b ∈ set := by
    clear entered
    induction path with
    | refl => exact start
    | tail path step ih =>
      intro entered
      rcases grown.finished _ (ih step.1) with impossible | finished
      · cases impossible
      · exact finished.2 _ step.2 entered
  rcases grown.finished b (visited entered) with impossible | finished
  · cases impossible
  · exact finished.1

private theorem unvisited_lt {nodes : List α} {fuel : Nat} (enough : nodes.length < fuel) : unvisited nodes [] < fuel := by
  have := List.length_filter_le (fun a => decide (a ∉ ([] : List α))) nodes
  simp only [unvisited]
  omega

theorem search_iff {nodes : List α} (closed : ∀ a ∈ nodes, ∀ b ∈ next a, b ∈ nodes) {fuel : Nat} {a : α}
    (node : a ∈ nodes) (enough : nodes.length < fuel) :
    (search enter found next fuel a []).1 = true ↔ ∃ b, ReflTransGen (Leads enter next) a b ∧ enter b ∧ found b := by
  have correct : CallCorrect enter found next a [] (search enter found next fuel a []) :=
    search_correct closed node (unvisited_lt enough)
  obtain ⟨sound,complete⟩ := correct
  refine ⟨sound,fun ⟨b,path,entered,here⟩ => ?_⟩
  cases result : (search enter found next fuel a []).1 with
  | true => rfl
  | false =>
    obtain ⟨grown,start⟩ := complete result
    rw [grown.not_found start path entered] at here
    cases here

end KdeWorkspace.Search
