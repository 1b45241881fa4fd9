import KdeWorkspace.StackingOrder

/-!
Windows above an active fullscreen window of their group (the `minimum_layer` of `constrainedStackingOrder`).

The minimum layer of a group on a screen is promoted to `ActiveLayer` by its fullscreen window, stays there over
the windows in `NormalLayer` and `AboveLayer`, and is lost to any other window of the group.
-/
namespace KdeWorkspace.StackingOrder
open Relations Lists Clients Function Bool

section
variable (ws : Workspace) (layerOf : Toplevel → Layer) (screenOf : Toplevel → Nat)

def Layer.promoted (l : Layer) : Bool := l = .NormalLayer || l = .AboveLayer

/-- The windows of a group on a screen. -/
def alongside (ws : Workspace) (screenOf : Toplevel → Nat) (a w : Toplevel) : Bool :=
  screenOf w = screenOf a && groupKey ws w = groupKey ws a

/-- The last window of the group on the screen that sets the minimum layer anew. -/
def lastDecisive (ws : Workspace) (layerOf : Toplevel → Layer) (screenOf : Toplevel → Nat) (a : Toplevel)
    (windows : List Toplevel) : Option Toplevel :=
  (windows.filter fun w => alongside ws screenOf a w && !(layerOf w).promoted).getLast?

/-- Whether the minimum layer is `ActiveLayer` still after windows above an active fullscreen window. -/
def KeepsActive (ws : Workspace) (layerOf : Toplevel → Layer) (screenOf : Toplevel → Nat) (a : Toplevel)
    (between : List Toplevel) : Prop := ∀ w ∈ lastDecisive ws layerOf screenOf a between, layerOf w = .ActiveLayer

/-- The layer a window is put into. -/
def Layered.layerFor (s : Layered) (ws : Workspace) (layerOf : Toplevel → Layer) (screenOf : Toplevel → Nat)
    (w : Toplevel) : Layer :=
  if s.minimumLayer (screenOf w) (groupKey ws w) = some .ActiveLayer ∧ (layerOf w).promoted then .ActiveLayer
  else layerOf w

theorem appendToLayer_layerFor (s : Layered) (w : Toplevel) :
    (appendToLayer ws layerOf screenOf s w).layer =
      Function.update s.layer (s.layerFor ws layerOf screenOf w) (s.layer (s.layerFor ws layerOf screenOf w)++[w]) := by
  cases found : s.minimumLayer (screenOf w) (groupKey ws w) with
  | none => simp [appendToLayer,Layered.layerFor,found]
  | some mLayer => simp [appendToLayer,Layered.layerFor,found,Layer.promoted]

theorem appendToLayer_apart {a w : Toplevel} (s : Layered) (apart : alongside ws screenOf a w = false) :
    (appendToLayer ws layerOf screenOf s w).minimumLayer (screenOf a) (groupKey ws a) =
      s.minimumLayer (screenOf a) (groupKey ws a) := by
  have other (l : Option Layer) : update s.minimumLayer (screenOf w)
      (update (s.minimumLayer (screenOf w)) (groupKey ws w) l) (screenOf a) (groupKey ws a) =
        s.minimumLayer (screenOf a) (groupKey ws a) := by
    by_cases screen : screenOf a = screenOf w
    · have group : groupKey ws a ≠ groupKey ws w := by
        intro same
        simp [alongside,screen,same] at apart
      rw [screen,update_self,update_of_ne group]
    · rw [update_of_ne screen]
  cases found : s.minimumLayer (screenOf w) (groupKey ws w) with
  | none =>
    cases w with
    | client c => simpa [appendToLayer,found] using other _
    | other w => simp [appendToLayer,found]
  | some mLayer => simpa [appendToLayer,found] using other _

theorem appendToLayer_alongside {a w : Toplevel} (s : Layered) (beside : alongside ws screenOf a w)
    (known : s.minimumLayer (screenOf a) (groupKey ws a) ≠ none ∨ ∃ c, w = .client c) :
    (appendToLayer ws layerOf screenOf s w).minimumLayer (screenOf a) (groupKey ws a) =
      some (s.layerFor ws layerOf screenOf w) := by
  simp only [alongside,and_eq_true,decide_eq_true_eq] at beside
  rw [← beside.1,← beside.2] at known ⊢
  cases found : s.minimumLayer (screenOf w) (groupKey ws w) with
  | none =>
    obtain ⟨c,rfl⟩ := known.resolve_left (by simp [found])
    simp [appendToLayer,Layered.layerFor,found]
  | some mLayer => simp [appendToLayer,Layered.layerFor,found,Layer.promoted]

/-- From `ActiveLayer` on, the minimum layer is what the last decisive window says. -/
theorem foldl_minimumLayer {a : Toplevel} (windows : List Toplevel) {s : Layered}
    (active : s.minimumLayer (screenOf a) (groupKey ws a) = some .ActiveLayer) :
    ∃ m, (windows.foldl (appendToLayer ws layerOf screenOf) s).minimumLayer (screenOf a) (groupKey ws a) = some m ∧
      (m = .ActiveLayer ↔ KeepsActive ws layerOf screenOf a windows) := by
  induction windows using List.reverseRecOn with
  | nil => exact ⟨.ActiveLayer,active,by simp [KeepsActive,lastDecisive]⟩
  | append_singleton windows w ih =>
    obtain ⟨m,minimum,keeps⟩ := ih
    rw [List.foldl_append,List.foldl_cons,List.foldl_nil]
    generalize windows.foldl (appendToLayer ws layerOf screenOf) s = t at minimum ⊢
    by_cases beside : alongside ws screenOf a w
    · refine ⟨_,appendToLayer_alongside ws layerOf screenOf t beside (Or.inl (by simp [minimum])),?_⟩
      have same := beside
      simp only [alongside,and_eq_true,decide_eq_true_eq] at same
      unfold Layered.layerFor
      rw [same.1,same.2,minimum]
      by_cases promoted : (layerOf w).promoted
      · have layer : layerOf w ≠ .ActiveLayer := by
          intro equal
          simp [equal,Layer.promoted] at promoted
        simpa [KeepsActive,lastDecisive,beside,promoted,layer] using keeps
      · simp [KeepsActive,lastDecisive,beside,promoted]
    · refine ⟨m,?_,?_⟩
      · rw [appendToLayer_apart ws layerOf screenOf t (by simpa using beside)]
        exact minimum
      · simpa [KeepsActive,lastDecisive,beside] using keeps

theorem foldl_layer_kept (windows : List Toplevel) (s : Layered) (l : Layer) :
    s.layer l <+: (windows.foldl (appendToLayer ws layerOf screenOf) s).layer l := by
  induction windows generalizing s with
  | nil => exact List.prefix_rfl
  | cons w rest ih =>
    refine List.IsPrefix.trans ?_ (ih _)
    rw [appendToLayer_layerFor]
    by_cases here : l = s.layerFor ws layerOf screenOf w
    · rw [here,update_self]
      exact List.prefix_append _ _
    · rw [update_of_ne here]

theorem mem_appendToLayer (s : Layered) (w : Toplevel) :
    w ∈ (appendToLayer ws layerOf screenOf s w).layer (s.layerFor ws layerOf screenOf w) := by
  rw [appendToLayer_layerFor,update_self]
  simp

theorem before_of_layers {lists : Layer → List Toplevel} {a b : Toplevel} {l : Layer} (below : b ∈ lists l)
    (active : a ∈ lists .ActiveLayer) (promoted : l.promoted) : Before (Layer.all.flatMap lists) b a := by
  have both := (List.singleton_sublist.mpr below).append (List.singleton_sublist.mpr active)
  refine List.Sublist.trans both ?_
  have layers : [l,.ActiveLayer].Sublist Layer.all := by
    cases l <;> first | decide | simp [Layer.promoted] at promoted
  simpa using layers.flatMap lists

/-- A window above an active fullscreen window of its group, in the unconstrained order, is above it in the layers
where the minimum layer has been kept. -/
theorem layeredOrder_active {a b : ClientRef} {below between above : List Toplevel}
    (nodup : (below++.client a :: (between++.client b :: above)).Nodup)
    (group : (ws.client a).inGroup = (ws.client b).inGroup) (screen : screenOf (.client a) = screenOf (.client b))
    (active : layerOf (.client a) = .ActiveLayer)
    (lower : layerOf (.client b) = .NormalLayer ∨ layerOf (.client b) = .AboveLayer) :
    Before (layeredOrder ws layerOf screenOf (below++.client a :: (between++.client b :: above)))
        (.client a) (.client b) ↔
      KeepsActive ws layerOf screenOf (.client a) between := by
  have distinct := (layeredOrder_perm ws layerOf screenOf _).nodup_iff.mpr nodup
  revert distinct
  unfold layeredOrder
  simp only [List.foldl_append,List.foldl_cons]
  generalize below.foldl (appendToLayer ws layerOf screenOf) ⟨fun _ _ => none,fun _ => []⟩ = s
  intro distinct
  -- the fullscreen window
  have alone : s.layerFor ws layerOf screenOf (.client a) = .ActiveLayer := by
    simp [Layered.layerFor,active]
  have minimum := appendToLayer_alongside ws layerOf screenOf (a := .client a) (w := .client a) s
    (by simp [alongside]) (Or.inr ⟨a,rfl⟩)
  have there : Toplevel.client a ∈ (appendToLayer ws layerOf screenOf s (.client a)).layer .ActiveLayer := by
    simpa [alone] using mem_appendToLayer ws layerOf screenOf s (.client a)
  rw [alone] at minimum
  generalize appendToLayer ws layerOf screenOf s (.client a) = t at *
  -- the windows between them
  obtain ⟨m,kept,keeps⟩ := foldl_minimumLayer ws layerOf screenOf between minimum
  have after := (foldl_layer_kept ws layerOf screenOf between t
    .ActiveLayer).subset there
  generalize between.foldl (appendToLayer ws layerOf screenOf) t = u at *
  -- the window above
  have promoted : (layerOf (.client b)).promoted := by
    rcases lower with layer | layer <;> simp [layer,Layer.promoted]
  have key : groupKey ws (.client a) = groupKey ws (.client b) := group
  have put : u.layerFor ws layerOf screenOf (.client b) = if m = .ActiveLayer then .ActiveLayer else layerOf (.client b) := by
    simp [Layered.layerFor,← screen,← key,kept,promoted]
  have grows (l : Layer) := foldl_layer_kept ws layerOf screenOf above
    (appendToLayer ws layerOf screenOf u (.client b)) l
  have appended := appendToLayer_layerFor ws layerOf screenOf u (.client b)
  rw [← keeps]
  by_cases stays : m = .ActiveLayer
  · rw [if_pos stays] at put
    rw [put] at appended
    refine iff_of_true ?_ stays
    have pair : Before ((appendToLayer ws layerOf screenOf u (.client b)).layer .ActiveLayer) (.client a) (.client b) := by
      rw [appended,update_self]
      exact (List.singleton_sublist.mpr after).append (List.Sublist.refl [Toplevel.client b])
    refine pair.trans ((grows .ActiveLayer).sublist.trans ?_)
    exact List.sublist_flatten_of_mem (List.mem_map.mpr ⟨.ActiveLayer,by decide,rfl⟩)
  · rw [if_neg stays] at put
    refine iff_of_false ?_ stays
    refine Before.asymm distinct (before_of_layers (l := layerOf (.client b)) ?_ ?_ promoted)
    · refine (grows _).subset ?_
      simpa [put] using mem_appendToLayer ws layerOf screenOf u (.client b)
    · refine (grows _).subset ?_
      rw [appended]
      by_cases same : Layer.ActiveLayer = u.layerFor ws layerOf screenOf (.client b)
      · rw [← same,update_self]
        simp [after]
      · rwa [update_of_ne same]

/-- Windows of one group, none of them transient. -/
def oneGroup : Workspace where
  rootWindow := 1
  rootExists := one_exists
  objects := [0,1,2]
  client c := {
    window := 10+c
    declaredType := .Normal
    modal := false
    wmClientLeaderWin := 10
    windowGroup := 10
    originalTransientForId := windowNone
    transientForId := windowNone
    transientFor := none
    holdsId := none_holdsId
    transientsList := []
    inGroup := some 0 }
  clients := [0,1,2]
  desktops := []
  groups := [0]
  group _ := ⟨10,[0,1,2],0⟩
  nextGroup := 1

/-- The window 0 is an active fullscreen window and 1 is kept below. -/
def fullScreenLayer : Toplevel → Layer
  | .client 0 => .ActiveLayer
  | .client 1 => .BelowLayer
  | _ => .NormalLayer

theorem layeredOrder_active_normal :
    Before (layeredOrder oneGroup fullScreenLayer (fun _ => 0) ([]++.client 0 :: ([.client 2]++.client 3 :: [])))
        (.client 0) (.client 3) ↔
      KeepsActive oneGroup fullScreenLayer (fun _ => 0) (.client 0) [.client 2] :=
  layeredOrder_active oneGroup fullScreenLayer (fun _ => 0) (by decide) rfl rfl rfl (Or.inl rfl)

/-- Over a window of the group that is kept below, and lies between the two, the promotion is forgotten. -/
theorem kept_below_demotes :
    (oneGroup.client 0).inGroup = (oneGroup.client 2).inGroup ∧ fullScreenLayer (.client 0) = .ActiveLayer ∧
      fullScreenLayer (.client 2) = .NormalLayer ∧
      Before [.client 0,.client 1,.client 2] (Toplevel.client 0) (.client 2) ∧
      ¬Before (layeredOrder oneGroup fullScreenLayer (fun _ => 0) [.client 0,.client 1,.client 2])
        (.client 0) (.client 2) := by
  refine ⟨rfl,rfl,rfl,?_,?_⟩
  · unfold Before
    decide
  · unfold Before
    decide

end
end KdeWorkspace.StackingOrder
