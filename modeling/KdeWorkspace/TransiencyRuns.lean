import KdeWorkspace.TransiencyInvariant

/-!
Runs of window operations: windows are mapped, change their properties and
groups, and go away. Every operation keeps the invariant (`step_good`), so in
every state of a run main windows make no cycle (`run_transientFor_acyclic`), and
groups, lists and main clients agree (`run_consistent`).

`verifyTransientFor` accepts a main window only when the walk up from it does not
meet the client, so a new pointer closes no cycle (`verifyTransientFor_verifies`).
-/
namespace KdeWorkspace.TransiencyRuns
open Relation Relations Lists Loops Clients GroupTransients
  KdeWorkspace.Transiency KdeWorkspace.TransiencyInvariant

/-- The workspace without a client in the lists of transients. -/
private def without (ws : Workspace) (t : ClientRef) : Workspace :=
  ws.withTransients fun c => removeAll (ws.client c).transientsList t

private theorem pointTo_again (ws : Workspace) (c : ClientRef) (v w : WindowId) :
    pointTo (pointTo ws c v) c w = pointTo ws c w := by
  unfold pointTo
  congr 1
  funext it
  by_cases self : it = c
  · simp only [self,↓reduceIte]
    rfl
  · simp only [self,↓reduceIte]

section
variable {ws : Workspace} (good : Good ws)
include good

private theorem only_main {t m c : ClientRef} (main : TransientFor ws t m) (entry : t ∈ (ws.client c).transientsList) :
    c = m := by
  rcases good.lists.entries c t entry with main' | ⟨groupTransient,_⟩
  · rw [TransientFor,show (ws.client t).transientFor = some m from main] at main'
    exact (Option.some.inj main').symm
  · have noMain := good.windows.noMain groupTransient
    rw [show (ws.client t).transientFor = some m from main] at noMain
    cases noMain

private theorem eraseTransient_eq_without {t m : ClientRef} (main : TransientFor ws t m) :
    ws.eraseTransient m t = without ws t := by
  unfold Workspace.eraseTransient without
  congr 1
  funext c
  by_cases here : c = m
  · rw [if_pos here]
  · rw [if_neg here,removeAll_of_not_mem fun entry => here (only_main good main entry)]

theorem removeTransient_of_main {t m : ClientRef} (main : TransientFor ws t m) :
    removeTransient ws m t = pointTo (without ws t) t windowNone := by
  have direct : (ws.client t).transientFor = some m := main
  unfold removeTransient
  dsimp only
  rw [if_pos direct,eraseTransient_eq_without good main]

private theorem removeFromMainClients_eq (this : ClientRef) :
    removeFromMainClients ws this =
      if (ws.client this).transientFor = none then without ws this else pointTo (without ws this) this windowNone := by
  unfold removeFromMainClients
  cases main : (ws.client this).transientFor with
  | some m =>
    have normal : (pointTo (without ws this) this windowNone).groupTransient this = false := by
      show decide ((if this = this then windowNone else _) = ws.rootWindow) = false
      rw [if_pos rfl]
      exact decide_eq_false (Ne.symm ws.rootExists)
    simp only [removeTransient_of_main good main,normal]
    rfl
  | none =>
    dsimp only
    rw [if_pos rfl]
    have noEntry {c : ClientRef} (outside : ws.groupTransient this = false ∨ c ∉ ws.groupMembers this) :
        this ∉ (ws.client c).transientsList := by
      intro entry
      rcases good.lists.entries c this entry with main' | ⟨groupTransient,same,grouped⟩
      · rw [TransientFor,main] at main'
        cases main'
      · rcases outside with normal | notMember
        · rw [groupTransient] at normal
          cases normal
        · exact notMember ((mem_groupMembers good.groups).mpr ⟨same.symm,same ▸ grouped⟩)
    split
    · rw [foldl_removeTransient main]
      unfold without
      congr 1
      funext c
      by_cases member : c ∈ ws.groupMembers this
      · rw [if_pos member]
      · rw [if_neg member,removeAll_of_not_mem (noEntry (Or.inr member))]
    · rename_i normal
      have same : (fun c => removeAll (ws.client c).transientsList this) = fun c => (ws.client c).transientsList := by
        funext c
        exact removeAll_of_not_mem (noEntry (Or.inl (by simpa using normal)))
      unfold without
      rw [same]
      rfl

end

/-- The main window of a client gets the client into its list. -/
private def linkToMain (ws : Workspace) (this : ClientRef) : Workspace :=
  match (ws.client this).transientFor with
  | some main => addTransient ws main this
  | none => ws

private theorem linkToMain_relisted (ws : Workspace) (this : ClientRef) : Relisted ws (linkToMain ws this) := by
  unfold linkToMain
  split
  · exact ⟨_,rfl⟩
  · exact .refl ws

/-- An id that a client can be given: no window, the root window, or that of a
    managed client that is not transient for it. -/
def Verifies (ws : Workspace) (this : ClientRef) (w : WindowId) : Prop :=
  w = windowNone ∨ w = ws.rootWindow ∨ ∃ c, ws.findClient w = some c ∧ ¬ ReflTransGen (TransientFor ws) c this

section
variable {ws : Workspace}

private theorem pointTo_transientFor_other {this t : ClientRef} (w : WindowId) (other : t ≠ this) :
    ((pointTo ws this w).client t).transientFor = (ws.client t).transientFor := if_neg other

variable {this : ClientRef}

private theorem pointTo_windows (windows : Windows ws) {w : WindowId} (object : this ∈ ws.objects)
    (verifies : Verifies ws this w) : Windows (pointTo ws this w) := by
  have self : ((pointTo ws this w).client this).transientFor =
      if w ≠ windowNone ∧ w ≠ ws.rootWindow then ws.findClient w else none := if_pos rfl
  have id : ((pointTo ws this w).client this).transientForId = w := if_pos rfl
  have otherId {t : ClientRef} (other : t ≠ this) :
      ((pointTo ws this w).client t).transientForId = (ws.client t).transientForId := if_neg other
  have found {m : ClientRef} (main : TransientFor (pointTo ws this w) this m) : ws.findClient w = some m := by
    rw [TransientFor,self] at main
    split at main
    · exact main
    · cases main
  refine ⟨windows.managed,windows.exist,windows.unique,fun t m main => ?_,fun t noMain => ?_,fun t unknown => ?_,
    windows.acyclic.redirect (x := this) (fun t m main other => ?_) fun m main => ?_⟩
  · by_cases same : t = this
    · subst same
      obtain ⟨member,window⟩ := findClient_some (found main)
      exact ⟨member,id.trans window.symm⟩
    · rw [TransientFor,pointTo_transientFor_other w same] at main
      rw [otherId same]
      exact windows.link t m main
  · by_cases same : t = this
    · subst same
      rw [self] at noMain
      rw [id]
      rcases verifies with none | root | ⟨c,client,_⟩
      · exact Or.inl none
      · exact Or.inr root
      · rw [client] at noMain
        by_contra neither
        have chosen : w ≠ windowNone ∧ w ≠ ws.rootWindow := not_or.mp neither
        rw [if_pos chosen] at noMain
        cases noMain
    · rw [pointTo_transientFor_other w same] at noMain
      rw [otherId same]
      exact windows.unlinked t noMain
  · have other : t ≠ this := by
      rintro rfl
      exact unknown object
    rw [otherId other]
    exact windows.unknown t unknown
  · rwa [TransientFor,pointTo_transientFor_other w other] at main
  · have client := found main
    have exists' := findClient_some client
    rcases verifies with none | root | ⟨c,client',away⟩
    · exact absurd (exists'.2.trans none) (windows.exist m exists'.1).1
    · exact absurd (exists'.2.trans root) (windows.exist m exists'.1).2
    · rw [client] at client'
      cases client'
      exact away

theorem redirect_good (good : Good ws) {w : WindowId} (object : this ∈ ws.objects)
    (verifies : Verifies ws this w) : Good (linkToMain (pointTo (without ws this) this w) this) := by
  have windows : Windows (pointTo (without ws this) this w) :=
    pointTo_windows ((Regrouped.of_withTransients ws _).windows good.windows) object verifies
  have groups : Groups (pointTo (without ws this) this w) := ⟨good.groups.member,good.groups.fresh,good.groups.object⟩
  generalize pointed : pointTo (without ws this) this w = after at windows groups
  have entry_iff (c t : ClientRef) : t ∈ ((linkToMain after this).client c).transientsList ↔
      t ∈ (after.client c).transientsList ∨ TransientFor after this c ∧ t = this := by
    unfold linkToMain TransientFor
    cases main : (after.client this).transientFor with
    | none => simp
    | some m =>
      rw [mem_addTransient,Option.some_inj]
      exact or_congr_right (and_congr_left fun _ => eq_comm)
  have linked := linkToMain_relisted after this
  have old_entry (c t : ClientRef) : t ∈ (after.client c).transientsList ↔ t ∈ (ws.client c).transientsList ∧ t ≠ this := by
    rw [← pointed]
    exact mem_removeAll
  have old_main {t : ClientRef} (other : t ≠ this) (m : ClientRef) : TransientFor after t m ↔ TransientFor ws t m := by
    rw [← pointed,TransientFor,pointTo_transientFor_other w other]
    rfl
  have group : groupOf after = groupOf ws := by
    rw [← pointed]
    rfl
  refine ⟨linked.regrouped.windows windows,linked.groups groups,⟨fun t m main => ?_,fun c t entry => ?_⟩,?_⟩
  · rw [linked.regrouped.transientFor] at main
    rw [entry_iff]
    by_cases self : t = this
    · exact Or.inr ⟨self ▸ main,self⟩
    · exact Or.inl ((old_entry m t).mpr ⟨good.lists.listed t m ((old_main self m).mp main),self⟩)
  · rw [linked.regrouped.transientFor,linked.regrouped.groupTransient,linked.groupOf,group]
    rcases (entry_iff c t).mp entry with earlier | ⟨main,self⟩
    · obtain ⟨before,other⟩ := (old_entry c t).mp earlier
      rw [old_main other]
      refine (good.lists.entries c t before).imp id fun ⟨groupTransient,same⟩ => ⟨?_,same⟩
      rw [← pointed]
      show decide ((if t = this then w else (ws.client t).transientForId) = ws.rootWindow) = true
      rw [if_neg other]
      exact groupTransient
    · exact Or.inl (self ▸ main)
  · rw [linked.groupOf,group,linked.regrouped.managed,← pointed]
    exact good.grouped

private theorem eraseTransient_good (good : Good ws) {c cl : ClientRef} (other : ¬ TransientFor ws cl c) :
    Good (ws.eraseTransient c cl) := by
  have erased : Relisted ws (ws.eraseTransient c cl) := ⟨_,rfl⟩
  refine ⟨erased.regrouped.windows good.windows,erased.groups good.groups,⟨fun t m main => ?_,fun a t entry => ?_⟩,
    good.grouped⟩
  · refine mem_eraseTransient.mpr ⟨good.lists.listed t m main,?_⟩
    rintro ⟨rfl,rfl⟩
    exact other main
  · exact good.lists.entries a t (mem_eraseTransient.mp entry).1

private theorem forget_good (good : Good ws) (object : this ∈ ws.objects) :
    Good (pointTo (without ws this) this windowNone) := by
  have forgotten : ((pointTo (without ws this) this windowNone).client this).transientFor = none := by
    show (if this = this then if windowNone ≠ windowNone ∧ _ then _ else none else _) = none
    rw [if_pos rfl,if_neg (fun wanted => wanted.1 rfl)]
  have redirected := redirect_good good object (Or.inl rfl)
  unfold linkToMain at redirected
  rwa [forgotten] at redirected

private theorem object_of_main (good : Good ws) {t m : ClientRef} (main : TransientFor ws t m) : t ∈ ws.objects := by
  by_contra unknown
  obtain ⟨member,id⟩ := good.windows.link t m main
  exact (good.windows.exist m member).1 (id.symm.trans (good.windows.unknown t unknown))

theorem removeTransient_good (good : Good ws) (c cl : ClientRef) : Good (removeTransient ws c cl) := by
  by_cases main : TransientFor ws cl c
  · rw [removeTransient_of_main good main]
    exact forget_good good (object_of_main good main)
  · have direct : ¬ (ws.client cl).transientFor = some c := main
    unfold removeTransient
    dsimp only
    rw [if_neg direct]
    exact eraseTransient_good good main

/-- What the operations on existing windows leave alone. -/
structure Frame (before after : Workspace) : Prop where
  rootWindow : after.rootWindow = before.rootWindow
  objects : after.objects = before.objects
  clients : after.clients = before.clients
  desktops : after.desktops = before.desktops
  window : ∀ c, (after.client c).window = (before.client c).window

theorem Frame.refl (ws : Workspace) : Frame ws ws := ⟨rfl,rfl,rfl,rfl,fun _ => rfl⟩

theorem Frame.trans {before after last : Workspace} (first : Frame before after) (second : Frame after last) :
    Frame before last :=
  ⟨second.rootWindow.trans first.rootWindow,second.objects.trans first.objects,second.clients.trans first.clients,
    second.desktops.trans first.desktops,fun c => (second.window c).trans (first.window c)⟩

theorem Frame.of_regrouped {before after : Workspace} (regrouped : Regrouped before after) : Frame before after := by
  obtain ⟨_,_,_,_,_,rfl⟩ := regrouped
  exact ⟨rfl,rfl,rfl,rfl,fun _ => rfl⟩

private theorem setTransient_eq (good : Good ws) {w : WindowId} (changed : w ≠ (ws.client this).transientForId) :
    setTransient ws this w = checkGroup (linkToMain (pointTo (without ws this) this w) this) this none true := by
  have pointed : pointTo (removeFromMainClients ws this) this w = pointTo (without ws this) this w := by
    rw [removeFromMainClients_eq good]
    split
    · rfl
    · exact pointTo_again _ _ _ _
  unfold setTransient
  rw [if_pos changed]
  dsimp only
  rw [pointed]
  rfl

theorem setTransient_good (good : Good ws) {w : WindowId} (object : this ∈ ws.objects) (verifies : Verifies ws this w) :
    Good (setTransient ws this w) ∧ Frame ws (setTransient ws this w) ∧
      (groupOf ws this ≠ none → groupOf (setTransient ws this w) this ≠ none) := by
  by_cases changed : w ≠ (ws.client this).transientForId
  · rw [setTransient_eq good changed]
    have pointed : Frame ws (pointTo (without ws this) this w) := ⟨rfl,rfl,rfl,rfl,fun _ => rfl⟩
    have linked := pointed.trans (.of_regrouped (linkToMain_relisted _ this).regrouped)
    obtain ⟨checked,regrouped,grouped⟩ := checkGroup_good (redirect_good good object verifies)
      (fun g (found : none = some g) => by cases found) (show this ∈ _ by rw [linked.objects]; exact object) true
    exact ⟨checked,linked.trans (.of_regrouped regrouped),fun _ => grouped⟩
  · unfold setTransient
    rw [if_neg changed]
    exact ⟨good,.refl ws,id⟩

end

/-- The windows of the X server form a tree: the way up from a window ends. -/
def IsTree (parent : WindowId → Option WindowId) : Prop := WellFounded fun p w => parent w = some p

private theorem searchEmbedder_ends (ws : Workspace) {parent : WindowId → Option WindowId} (tree : IsTree parent)
    (w : WindowId) : ∃ found, Ends (searchEmbedder ws parent) w found := by
  induction w using tree.induction with
  | _ w ih =>
    by_cases goes : w ≠ windowNone ∧ w ≠ ws.rootWindow ∧ ws.findClient w = none
    · cases up : parent w with
      | none => exact ⟨w,ends_done (by rw [searchEmbedder,if_pos goes,up])⟩
      | some p =>
        obtain ⟨found,ended⟩ := ih p up
        exact ⟨found,ends_next (by rw [searchEmbedder,if_pos goes,up]) ended⟩
    · exact ⟨w,ends_done (by rw [searchEmbedder,if_neg goes])⟩

section
variable {ws : Workspace} (windows : Windows ws)
include windows

private theorem detectLoop_next {c : ClientRef} (member : c ∈ ws.managed) (this : ClientRef) (count : Int) (w : WindowId) :
    detectLoop ws this ⟨count,(ws.client c).window,w⟩ =
      .next ⟨count-1,(ws.client c).transientForId,if count-1 = 0 ∨ c = this then ws.rootWindow else w⟩ := by
  have goes := windows.exist c member
  have found := windows.findClient_window member
  simp only [detectLoop]
  rw [if_pos goes,found]

private theorem detectLoop_ends (this : ClientRef) (s : LoopDetection) : ∃ checked, Ends (detectLoop ws this) s checked := by
  obtain ⟨count,pos,w⟩ := s
  have known (c : ClientRef) (member : c ∈ ws.managed) (count : Int) (w : WindowId) :
      ∃ checked, Ends (detectLoop ws this) ⟨count,(ws.client c).window,w⟩ checked := by
    induction c using (windows.acyclic.flip.wellFounded_on ws.managed).induction generalizing count w with
    | _ c ih =>
      have next := detectLoop_next windows member this count w
      cases main : (ws.client c).transientFor with
      | some m =>
        obtain ⟨above,id⟩ := windows.link c m main
        rw [id] at next
        obtain ⟨checked,ended⟩ := ih m ⟨main,above,member⟩ above _ _
        exact ⟨checked,ends_next next ended⟩
      | none =>
        have last : ¬ ((ws.client c).transientForId ≠ windowNone ∧ (ws.client c).transientForId ≠ ws.rootWindow) := by
          rintro ⟨window,notRoot⟩
          exact (windows.unlinked c main).elim window notRoot
        exact ⟨_,ends_next next (ends_done (by simp only [detectLoop]; rw [if_neg last]))⟩
  by_cases goes : pos ≠ windowNone ∧ pos ≠ ws.rootWindow
  · cases found : ws.findClient pos with
    | none => exact ⟨w,ends_done (by simp only [detectLoop]; rw [if_pos goes,found])⟩
    | some c =>
      obtain ⟨member,window⟩ := findClient_some found
      rw [← window]
      exact known c member count w
  · exact ⟨w,ends_done (by simp only [detectLoop]; rw [if_neg goes])⟩

private theorem detectLoop_result {this : ClientRef} {fuel : Nat} {s : LoopDetection} {checked : WindowId}
    (ended : loop (detectLoop ws this) fuel s = some checked) :
    (checked = s.new_transient_for ∨ checked = ws.rootWindow) ∧
    (checked ≠ ws.rootWindow → ∀ c ∈ ws.managed, s.loop_pos = (ws.client c).window →
      ¬ ReflTransGen (TransientFor ws) c this) := by
  induction fuel generalizing s with
  | zero => cases ended
  | succ fuel ih =>
    obtain ⟨count,pos,w⟩ := s
    have stops (done : detectLoop ws this ⟨count,pos,w⟩ = .done w) : checked = w := by
      rw [loop_done done] at ended
      exact (Option.some.inj ended).symm
    by_cases goes : pos ≠ windowNone ∧ pos ≠ ws.rootWindow
    · cases found : ws.findClient pos with
      | none =>
        have same := stops (by simp only [detectLoop]; rw [if_pos goes,found])
        refine ⟨Or.inl same,fun _ c member (window : pos = _) => ?_⟩
        rw [window,windows.findClient_window member] at found
        cases found
      | some c =>
        obtain ⟨member,rfl⟩ := findClient_some found
        rw [loop_next (detectLoop_next windows member this count w)] at ended
        obtain ⟨result,away⟩ := ih ended
        dsimp only at result away ⊢
        refine ⟨?_,fun notRoot d memberD window path => ?_⟩
        · split at result
          · exact Or.inr (result.elim id id)
          · exact result
        · cases windows.unique c member d memberD window
          rcases ReflTransGen.cases_head path with self | ⟨m,main,rest⟩
          · rw [if_pos (Or.inr self)] at result
            exact notRoot (result.elim id id)
          · obtain ⟨above,id⟩ := windows.link c m main
            exact away notRoot m above id rest
    · have same := stops (by simp only [detectLoop]; rw [if_neg goes])
      refine ⟨Or.inl same,fun _ c member (window : pos = _) => ?_⟩
      rw [window] at goes
      exact absurd (windows.exist c member) goes

/-- `verifyTransientFor` ends for every requested id. -/
theorem verifyTransientFor_ends {parent : WindowId → Option WindowId} (tree : IsTree parent) (this : ClientRef)
    (new_transient_for : WindowId) (set : Bool) :
    ∃ result, VerifyTransientFor ws parent this new_transient_for set result := by
  unfold VerifyTransientFor
  cases request ws this new_transient_for set with
  | none => exact ⟨_,rfl⟩
  | some r =>
    obtain ⟨found,embedded⟩ := searchEmbedder_ends ws tree r.new_transient_for
    obtain ⟨checked,detected⟩ := detectLoop_ends windows this _
    exact ⟨_,found,embedded,checked,detected,rfl⟩

theorem verifyTransientFor_verifies {parent : WindowId → Option WindowId} {this : ClientRef}
    {new_transient_for : WindowId} {set : Bool} {result : Verified}
    (verified : VerifyTransientFor ws parent this new_transient_for set result) :
    Verifies ws this result.transientFor := by
  unfold VerifyTransientFor at verified
  cases requested : request ws this new_transient_for set with
  | none =>
    rw [requested] at verified
    rw [show result = ⟨windowNone,none⟩ from verified]
    exact Or.inl rfl
  | some r =>
    rw [requested] at verified
    obtain ⟨found,_,checked,⟨fuel,detected⟩,rfl⟩ := verified
    obtain ⟨kept,away⟩ := detectLoop_result windows detected
    dsimp only [answer] at kept away ⊢
    split
    · exact Or.inr (Or.inl rfl)
    · rename_i known
      by_cases root : checked = ws.rootWindow
      · exact Or.inr (Or.inl root)
      · cases client : ws.findClient checked with
        | none => exact absurd ⟨root,client⟩ known
        | some c =>
          obtain ⟨member,window⟩ := findClient_some client
          have same := kept.resolve_right root
          exact Or.inr (Or.inr ⟨c,client,away root c member (same.symm.trans window.symm)⟩)

end

section
variable {ws : Workspace} (good : Good ws) {this : ClientRef} (object : this ∈ ws.objects)
include good object

/-- What an operation on a client leaves. -/
structure Kept (before after : Workspace) (this : ClientRef) : Prop where
  good : Good after
  frame : Frame before after
  grouped : groupOf before this ≠ none → groupOf after this ≠ none

omit good object in
private theorem setOriginalTransientForId_kept (good : Good ws) (this : ClientRef) (w : WindowId) :
    Kept ws (setOriginalTransientForId ws this w) this := by
  obtain ⟨windows,groups,lists,grouped⟩ := good
  exact ⟨⟨⟨windows.managed,windows.exist,windows.unique,windows.link,windows.unlinked,windows.unknown,windows.acyclic⟩,
    ⟨groups.member,groups.fresh,groups.object⟩,⟨lists.listed,lists.entries⟩,grouped⟩,⟨rfl,rfl,rfl,rfl,fun _ => rfl⟩,id⟩

omit object in
theorem readTransient_ends {parent : WindowId → Option WindowId} (tree : IsTree parent) (this : ClientRef)
    (value : Option WindowId) :
    ∃ after, ReadTransient ws parent this value after := by
  have original := setOriginalTransientForId_kept good this (value.getD windowNone)
  obtain ⟨result,verified⟩ := verifyTransientFor_ends original.good.windows tree this (value.getD windowNone) value.isSome
  exact ⟨_,result,verified,rfl⟩

theorem readTransient_kept {parent : WindowId → Option WindowId} {value : Option WindowId} {after : Workspace}
    (read : ReadTransient ws parent this value after) : Kept ws after this := by
  obtain ⟨result,verified,rfl⟩ := read
  have original := setOriginalTransientForId_kept good this (value.getD windowNone)
  obtain ⟨set,frame,grouped⟩ := setTransient_good original.good (show this ∈ _ by rw [original.frame.objects]; exact object)
    (verifyTransientFor_verifies original.good.windows verified)
  exact ⟨set,original.frame.trans frame,fun before => grouped (original.grouped before)⟩

omit object in
theorem checkTransient_ends {parent : WindowId → Option WindowId} (tree : IsTree parent) (this : ClientRef) (w : WindowId) :
    ∃ after, CheckTransient ws parent this w after := by
  unfold CheckTransient
  split
  · exact ⟨_,rfl⟩
  · obtain ⟨result,verified⟩ := verifyTransientFor_ends good.windows tree this w true
    exact ⟨_,result,verified,rfl⟩

theorem checkTransient_kept {parent : WindowId → Option WindowId} {w : WindowId} {after : Workspace}
    (check : CheckTransient ws parent this w after) : Kept ws after this := by
  unfold CheckTransient at check
  split at check
  · rw [check]
    exact ⟨good,.refl ws,id⟩
  · obtain ⟨result,verified,rfl⟩ := check
    obtain ⟨set,frame,grouped⟩ := setTransient_good good object (verifyTransientFor_verifies good.windows verified)
    exact ⟨set,frame,grouped⟩

end

section
variable {ws : Workspace} (good : Good ws) {parent : WindowId → Option WindowId} (w : WindowId)
include good

theorem checkTransients_ends (tree : IsTree parent) : ∃ after, CheckTransients ws parent w after := by
  have all (its : List ClientRef) (start : Workspace) (good : Good start) (objects : ∀ it ∈ its, it ∈ start.objects) :
      ∃ after, Run (fun before it after => CheckTransient before parent it w after) start its after := by
    induction its generalizing start with
    | nil => exact ⟨start,.nil start⟩
    | cons it rest ih =>
      obtain ⟨next,first⟩ := checkTransient_ends good tree it w
      have kept := checkTransient_kept good (objects it List.mem_cons_self) first
      obtain ⟨after,more⟩ := ih next kept.good fun later member => by
        rw [kept.frame.objects]
        exact objects later (List.mem_cons_of_mem it member)
      exact ⟨after,.cons first more⟩
  exact all ws.clients ws good fun it member => good.windows.managed it (List.mem_append_left _ member)

variable {w} in
theorem checkTransients_good {after : Workspace} (checks : CheckTransients ws parent w after) :
    Good after ∧ Frame ws after := by
  have all {its : List ClientRef} {start last : Workspace}
      (run : Run (fun before it after => CheckTransient before parent it w after) start its last)
      (good : Good start) (objects : ∀ it ∈ its, it ∈ start.objects) : Good last ∧ Frame start last := by
    clear checks
    induction run with
    | nil start => exact ⟨good,.refl start⟩
    | cons first _ ih =>
      have kept := checkTransient_kept good (objects _ List.mem_cons_self) first
      obtain ⟨good',frame⟩ := ih kept.good fun later member => by
        rw [kept.frame.objects]
        exact objects later (List.mem_cons_of_mem _ member)
      exact ⟨good',kept.frame.trans frame⟩
  exact all checks good fun it member => good.windows.managed it (List.mem_append_left _ member)

end

section
variable {ws : Workspace} (good : Good ws) {c : ClientRef}
include good

theorem unknown_blank (unknown : c ∉ ws.objects) :
    (ws.client c).transientFor = none ∧ (ws.client c).transientForId = windowNone ∧
      (ws.client c).transientsList = [] ∧ (ws.client c).inGroup = none := by
  have id := good.windows.unknown c unknown
  have outside : (ws.client c).inGroup = none := by
    by_contra grouped
    exact unknown (good.groups.object c grouped)
  refine ⟨?_,id,?_,outside⟩
  · cases main : (ws.client c).transientFor with
    | none => rfl
    | some m => exact absurd (object_of_main good main) unknown
  · rw [List.eq_nil_iff_forall_not_mem]
    intro t entry
    rcases good.lists.entries c t entry with main | ⟨_,_,grouped⟩
    · exact unknown (good.windows.managed c (good.windows.link t c main).1)
    · exact grouped outside

theorem construct_good (new : NewWindow) (unknown : c ∉ ws.objects) : Good (construct ws c new) := by
  obtain ⟨noMain,noId,noEntries,outside⟩ := unknown_blank good unknown
  have other {d : ClientRef} (member : d ∈ ws.managed) : d ≠ c := by
    rintro rfl
    exact unknown (good.windows.managed d member)
  have same {d : ClientRef} (different : d ≠ c) : (construct ws c new).client d = ws.client d := if_neg different
  have self : (construct ws c new).client c = new.client := if_pos rfl
  have main (d : ClientRef) : ((construct ws c new).client d).transientFor = (ws.client d).transientFor := by
    by_cases here : d = c
    · rw [here,self,noMain]
      rfl
    · rw [same here]
  have id (d : ClientRef) : ((construct ws c new).client d).transientForId = (ws.client d).transientForId := by
    by_cases here : d = c
    · rw [here,self,noId]
      rfl
    · rw [same here]
  have list (d : ClientRef) : ((construct ws c new).client d).transientsList = (ws.client d).transientsList := by
    by_cases here : d = c
    · rw [here,self,noEntries]
      rfl
    · rw [same here]
  have group (d : ClientRef) : ((construct ws c new).client d).inGroup = (ws.client d).inGroup := by
    by_cases here : d = c
    · rw [here,self,outside]
      rfl
    · rw [same here]
  have transientFor : TransientFor (construct ws c new) = TransientFor ws := by
    funext t m
    rw [TransientFor,TransientFor,main]
  obtain ⟨windows,groups,lists,grouped⟩ := good
  refine ⟨⟨fun d member => List.mem_append_left _ (windows.managed d member),fun d member => ?_,
    fun d memberD e memberE equal => ?_,fun t m transient => ?_,fun t none => ?_,fun d fresh => ?_,?_⟩,
    ⟨fun d g => ?_,groups.fresh,fun d inGroup => ?_⟩,⟨fun t m transient => ?_,fun d t entry => ?_⟩,fun d member => ?_⟩
  · rw [same (other member)]
    exact windows.exist d member
  · rw [same (other memberD),same (other memberE)] at equal
    exact windows.unique d memberD e memberE equal
  · rw [transientFor] at transient
    rw [id,same (other (windows.link t m transient).1)]
    exact windows.link t m transient
  · rw [main] at none
    rw [id]
    exact windows.unlinked t none
  · rw [id]
    exact windows.unknown d fun there => fresh (List.mem_append_left _ there)
  · rw [transientFor]
    exact windows.acyclic
  · rw [group]
    exact groups.member d g
  · rw [group] at inGroup
    exact List.mem_append_left _ (groups.object d inGroup)
  · rw [transientFor] at transient
    rw [list]
    exact lists.listed t m transient
  · rw [list] at entry
    have transient : (construct ws c new).groupTransient t = ws.groupTransient t := by
      show decide (((construct ws c new).client t).transientForId = ws.rootWindow) = _
      rw [id]
      rfl
    rw [transientFor,transient,groupOf,groupOf,group,group]
    exact lists.entries d t entry
  · rw [groupOf,group]
    exact grouped d member

theorem getWMHints_kept (object : c ∈ ws.objects) (windowGroup : WindowId) :
    Good (getWMHints ws c windowGroup) ∧ Frame ws (getWMHints ws c windowGroup) ∧
      groupOf (getWMHints ws c windowGroup) c ≠ none := by
  have hinted : Good (setWindowGroup ws c windowGroup) := by
    obtain ⟨windows,groups,lists,grouped⟩ := good
    exact ⟨⟨windows.managed,windows.exist,windows.unique,windows.link,windows.unlinked,windows.unknown,windows.acyclic⟩,
      ⟨groups.member,groups.fresh,groups.object⟩,⟨lists.listed,lists.entries⟩,grouped⟩
  have frame : Frame ws (setWindowGroup ws c windowGroup) := ⟨rfl,rfl,rfl,rfl,fun _ => rfl⟩
  obtain ⟨checked,regrouped,grouped⟩ := checkGroup_good hinted (fun g (found : none = some g) => by cases found) object false
  exact ⟨checked,frame.trans (.of_regrouped regrouped),grouped⟩

/-- A window that the workspace does not know yet, and that is not the root window. -/
structure IsNew (ws : Workspace) (w : WindowId) : Prop where
  exist : w ≠ windowNone ∧ w ≠ ws.rootWindow
  fresh : ∀ c ∈ ws.managed, (ws.client c).window ≠ w

private theorem appendClient_good (object : c ∈ ws.objects) (grouped : groupOf ws c ≠ none)
    (new : IsNew ws (ws.client c).window) : Good (appendClient ws c) := by
  have managed (d : ClientRef) : d ∈ (appendClient ws c).managed ↔ d ∈ ws.managed ∨ d = c := by
    unfold appendClient Workspace.managed
    split <;> simp <;> tauto
  have rest : (appendClient ws c).client = ws.client ∧ (appendClient ws c).objects = ws.objects ∧
      (appendClient ws c).rootWindow = ws.rootWindow ∧ (appendClient ws c).groups = ws.groups ∧
      (appendClient ws c).group = ws.group ∧ (appendClient ws c).nextGroup = ws.nextGroup := by
    unfold appendClient
    split <;> exact ⟨rfl,rfl,rfl,rfl,rfl,rfl⟩
  generalize appendClient ws c = after at managed rest
  obtain ⟨client,objects,root,groupList,group,next⟩ := rest
  have transientFor : TransientFor after = TransientFor ws := by
    funext t m
    rw [TransientFor,client,TransientFor]
  obtain ⟨windows,groups,lists,known⟩ := good
  refine ⟨⟨fun d member => ?_,fun d member => ?_,fun d memberD e memberE equal => ?_,fun t m transient => ?_,
    ?_,?_,?_⟩,⟨?_,?_,?_⟩,⟨?_,fun d t entry => ?_⟩,fun d member => ?_⟩
  · rw [objects]
    exact ((managed d).mp member).elim (windows.managed d) fun self => self ▸ object
  · rw [client,root]
    exact ((managed d).mp member).elim (windows.exist d) fun self => self ▸ new.exist
  · rw [client] at equal
    rcases (managed d).mp memberD with oldD | rfl <;> rcases (managed e).mp memberE with oldE | rfl
    · exact windows.unique d oldD e oldE equal
    · exact absurd equal (new.fresh d oldD)
    · exact absurd equal.symm (new.fresh e oldE)
    · rfl
  · rw [transientFor] at transient
    rw [client,managed]
    exact (windows.link t m transient).imp Or.inl id
  · rw [client,root]
    exact windows.unlinked
  · rw [client,objects]
    exact windows.unknown
  · rw [transientFor]
    exact windows.acyclic
  · rw [client,groupList,group]
    exact groups.member
  · rw [groupList,next]
    exact groups.fresh
  · rw [client,objects]
    exact groups.object
  · rw [transientFor,client]
    exact lists.listed
  · have transient : after.groupTransient t = ws.groupTransient t := by
      rw [Workspace.groupTransient,client,root,Workspace.groupTransient]
    rw [transientFor,transient,groupOf,groupOf,client]
    rw [client] at entry
    exact lists.entries d t entry
  · rw [groupOf,client]
    exact ((managed d).mp member).elim (known d) fun self => self ▸ grouped

private theorem read_appendClient_good {parent : WindowId → Option WindowId} (unknown : c ∉ ws.objects) {new : NewWindow}
    (fresh : IsNew ws new.window) {windowGroup : WindowId} {value : Option WindowId} {read : Workspace}
    (reads : ReadTransient (getWMHints (construct ws c new) c windowGroup) parent c value read) :
    Good (appendClient read c) := by
  have object : c ∈ (construct ws c new).objects := List.mem_append_right _ (List.mem_singleton_self c)
  obtain ⟨hinted,frame,grouped⟩ := getWMHints_kept (construct_good good new unknown) object windowGroup
  have kept := readTransient_kept hinted (show c ∈ _ by rw [frame.objects]; exact object) reads
  have whole := frame.trans kept.frame
  have window : (read.client c).window = new.window := by
    rw [whole.window]
    show (if c = c then new.client else ws.client c).window = _
    rw [if_pos rfl]
    rfl
  refine appendClient_good kept.good (by rw [whole.objects]; exact object) (kept.grouped grouped) ⟨?_,fun d member => ?_⟩
  · rw [window,whole.rootWindow]
    exact fresh.exist
  · have known : d ∈ ws.managed := by
      rw [Workspace.managed,whole.clients,whole.desktops] at member
      exact member
    have other : d ≠ c := by
      rintro rfl
      exact unknown (good.windows.managed d known)
    rw [window,whole.window]
    show (if d = c then new.client else ws.client d).window ≠ new.window
    rw [if_neg other]
    exact fresh.fresh d known

theorem manage_ends {parent : WindowId → Option WindowId} (tree : IsTree parent) (unknown : c ∉ ws.objects)
    (new : NewWindow) (fresh : IsNew ws new.window) (windowGroup : WindowId) (value : Option WindowId) :
    ∃ after, Manage ws parent c new windowGroup value after := by
  have object : c ∈ (construct ws c new).objects := List.mem_append_right _ (List.mem_singleton_self c)
  obtain ⟨hinted,_,_⟩ := getWMHints_kept (construct_good good new unknown) object windowGroup
  obtain ⟨read,reads⟩ := readTransient_ends hinted tree c value
  obtain ⟨after,checks⟩ := checkTransients_ends (read_appendClient_good good unknown fresh reads) new.window tree
  exact ⟨after,read,reads,checks⟩

theorem manage_good {parent : WindowId → Option WindowId} (unknown : c ∉ ws.objects) {new : NewWindow}
    (fresh : IsNew ws new.window) {windowGroup : WindowId} {value : Option WindowId} {after : Workspace}
    (managed : Manage ws parent c new windowGroup value after) : Good after := by
  obtain ⟨read,reads,checks⟩ := managed
  exact (checkTransients_good (read_appendClient_good good unknown fresh reads) checks).1

end

section
variable {ws : Workspace} (good : Good ws) {this : ClientRef} (object : this ∈ ws.objects)
include good

/-- The client has no main window and is in no list of transients. -/
private structure Unlisted (ws : Workspace) (this : ClientRef) : Prop where
  noMain : (ws.client this).transientFor = none
  absent : ∀ c, this ∉ (ws.client c).transientsList

include object in
private theorem removeFromMainClients_unlisted :
    Good (removeFromMainClients ws this) ∧ Unlisted (removeFromMainClients ws this) this ∧
      Frame ws (removeFromMainClients ws this) := by
  have absent (c : ClientRef) : this ∉ removeAll (ws.client c).transientsList this := by simp
  rw [removeFromMainClients_eq good]
  split
  · rename_i noMain
    have taken : Relisted ws (without ws this) := ⟨_,rfl⟩
    refine ⟨⟨taken.regrouped.windows good.windows,taken.groups good.groups,⟨fun t m main => ?_,fun c t entry => ?_⟩,
      good.grouped⟩,⟨noMain,absent⟩,.of_regrouped taken.regrouped⟩
    · refine mem_removeAll.mpr ⟨good.lists.listed t m main,?_⟩
      rintro rfl
      rw [show (ws.client t).transientFor = some m from main] at noMain
      cases noMain
    · exact good.lists.entries c t (mem_removeAll.mp entry).1
  · refine ⟨forget_good good object,⟨?_,absent⟩,⟨rfl,rfl,rfl,rfl,fun _ => rfl⟩⟩
    show (if this = this then if windowNone ≠ windowNone ∧ _ then _ else none else _) = none
    rw [if_pos rfl,if_neg (fun wanted => wanted.1 rfl)]

omit good in
private theorem removeTransients_correct {fuel : Nat} (good : Good ws) (unlisted : Unlisted ws this)
    (enough : (ws.client this).transientsList.length ≤ fuel) :
    Good (removeTransients this fuel ws) ∧ Unlisted (removeTransients this fuel ws) this ∧
      Frame ws (removeTransients this fuel ws) ∧ ∀ t, ¬ TransientFor (removeTransients this fuel ws) t this := by
  induction fuel generalizing ws with
  | zero =>
    have empty := List.eq_nil_of_length_eq_zero (Nat.le_zero.mp enough)
    refine ⟨good,unlisted,.refl ws,fun t main => ?_⟩
    have entry := good.lists.listed t this main
    rw [empty] at entry
    cases entry
  | succ fuel ih =>
    unfold removeTransients
    cases found : (ws.client this).transientsList.find? fun it => (ws.client it).transientFor = some this with
    | none =>
      refine ⟨good,unlisted,.refl ws,fun t main => ?_⟩
      have other := List.find?_eq_none.mp found t (good.lists.listed t this main)
      exact other (decide_eq_true main)
    | some it =>
      have meets := List.find?_some found
      have direct : (ws.client it).transientFor = some this := of_decide_eq_true meets
      have main : TransientFor ws it this := direct
      have entry := List.mem_of_find?_eq_some found
      have other : this ≠ it := by
        rintro rfl
        exact good.windows.acyclic.irrefl this main
      have removed := removeTransient_good good this it
      dsimp only
      rw [removeTransient_of_main good main] at removed ⊢
      have shorter : (removeAll (ws.client this).transientsList it).length < (ws.client this).transientsList.length :=
        List.length_filter_lt_length_iff_exists.mpr ⟨it,entry,by simp⟩
      obtain ⟨after,unlisted',frame,nobody⟩ := ih removed
        ⟨(pointTo_transientFor_other _ other).trans unlisted.noMain,fun c member => unlisted.absent c (mem_removeAll.mp member).1⟩
        (show (removeAll (ws.client this).transientsList it).length ≤ fuel by omega)
      have pointed : Frame ws (pointTo (without ws it) it windowNone) := ⟨rfl,rfl,rfl,rfl,fun _ => rfl⟩
      exact ⟨after,unlisted',pointed.trans frame,nobody⟩

omit good in
/-- The client is in no list, no client is transient for it, and it is in no group. -/
private structure Cleaned (ws : Workspace) (this : ClientRef) : Prop where
  windows : Windows ws
  groups : Groups ws
  listed : ∀ t m, TransientFor ws t m → t ∈ (ws.client m).transientsList
  entries : ∀ c, c ≠ this → ∀ t ∈ (ws.client c).transientsList,
    TransientFor ws t c ∨ ws.groupTransient t = true ∧ groupOf ws t = groupOf ws c ∧ groupOf ws c ≠ none
  absent : ∀ c, this ∉ (ws.client c).transientsList
  noMain : (ws.client this).transientFor = none
  nobody : ∀ t, ¬ TransientFor ws t this
  grouped : ∀ c ∈ ws.managed, c ≠ this → groupOf ws c ≠ none
  outside : groupOf ws this = none

include object in
private theorem cleanGrouping_cleaned (member : this ∈ ws.managed) :
    Cleaned (cleanGrouping ws this) this ∧ Frame ws (cleanGrouping ws this) := by
  obtain ⟨first,unlisted,frame⟩ := removeFromMainClients_unlisted good object
  obtain ⟨second,unlisted',frame',nobody⟩ := removeTransients_correct first unlisted le_rfl
  unfold cleanGrouping
  dsimp only
  generalize removeTransients this _ (removeFromMainClients ws this) = cleaned at second unlisted' frame' nobody ⊢
  have whole := frame.trans frame'
  have known : this ∈ cleaned.managed := by
    rw [Workspace.managed,whole.clients,whole.desktops]
    exact member
  cases inGroup : (cleaned.client this).inGroup with
  | none => exact absurd inGroup (second.grouped this known)
  | some g =>
    dsimp only
    have left := leave_left second.groups inGroup
    generalize setInGroup (removeMember cleaned g this) this none = after at left ⊢
    have noMain : (after.client this).transientFor = none := by
      have same := congrFun (congrFun left.regrouped.transientFor this)
      cases main : (after.client this).transientFor with
      | none => rfl
      | some m =>
        have before : TransientFor cleaned this m := (same m).mp main
        rw [TransientFor,unlisted'.noMain] at before
        cases before
    have absent (c : ClientRef) : this ∉ (after.client c).transientsList := by
      rw [left.lists]
      exact unlisted'.absent c
    -- the last loop finds nothing left to remove
    have same : (cleaned.groupMembers this).foldl (fun ws it => removeTransient ws it this) after = after := by
      rw [foldl_removeTransient noMain]
      have lists : (fun c => if c ∈ cleaned.groupMembers this then removeAll (after.client c).transientsList this
          else (after.client c).transientsList) = fun c => (after.client c).transientsList := by
        funext c
        split
        · exact removeAll_of_not_mem (absent c)
        · rfl
      rw [lists]
      rfl
    rw [same]
    refine ⟨⟨left.regrouped.windows second.windows,left.groups,fun t m main => ?_,fun c other t entry => ?_,absent,noMain,
      fun t main => ?_,fun c managed other => ?_,left.self⟩,whole.trans (.of_regrouped left.regrouped)⟩
    · rw [left.regrouped.transientFor] at main
      rw [left.lists]
      exact second.lists.listed t m main
    · have different : t ≠ this := by
        rintro rfl
        exact absent c entry
      rw [left.lists] at entry
      rw [left.regrouped.transientFor,left.regrouped.groupTransient,left.others t different,left.others c other]
      exact second.lists.entries c t entry
    · rw [left.regrouped.transientFor] at main
      exact nobody t main
    · rw [left.regrouped.managed] at managed
      rw [left.others c other]
      exact second.grouped c managed

omit good in
private theorem removeClient_rest (ws : Workspace) (this : ClientRef) :
    (removeClient ws this).client = ws.client ∧ (removeClient ws this).objects = ws.objects ∧
      (removeClient ws this).rootWindow = ws.rootWindow ∧
      ∀ c, c ∈ (removeClient ws this).managed ↔ c ∈ ws.managed ∧ c ≠ this := by
  have managed (c : ClientRef) : c ∈ removeAll ws.clients this ++ removeAll ws.desktops this ↔
      c ∈ ws.managed ∧ c ≠ this := by
    simp only [Workspace.managed,List.mem_append,mem_removeAll]
    tauto
  unfold removeClient
  dsimp only
  split
  · unfold lostLeader
    split
    · exact ⟨rfl,rfl,rfl,managed⟩
    · exact ⟨rfl,rfl,rfl,managed⟩
  · exact ⟨rfl,rfl,rfl,managed⟩

omit good in
private theorem removeClient_groups (groups : Groups ws) : Groups (removeClient ws this) := by
  have known : Groups { ws with clients := removeAll ws.clients this, desktops := removeAll ws.desktops this } :=
    ⟨groups.member,groups.fresh,groups.object⟩
  unfold removeClient
  dsimp only
  split
  · unfold lostLeader
    split
    · rename_i empty
      exact removeGroup_groups known empty
    · exact known
  · exact known

theorem destroyClient_good (member : this ∈ ws.managed) : Good (destroyClient ws this) := by
  obtain ⟨cleaned,_⟩ := cleanGrouping_cleaned good (good.windows.managed this member) member
  unfold destroyClient
  generalize cleanGrouping ws this = before at cleaned ⊢
  obtain ⟨client,objects,root,managed⟩ := removeClient_rest before this
  have groups : Groups (removeClient before this) := removeClient_groups cleaned.groups
  generalize removeClient before this = removed at client objects root managed groups ⊢
  have self : (deleteClient removed this).client this = NewWindow.client ⟨windowNone,.Unknown,false,windowNone⟩ := if_pos rfl
  have same {c : ClientRef} (other : c ≠ this) : (deleteClient removed this).client c = before.client c := by
    rw [← client]
    exact if_neg other
  have group {c : ClientRef} : ((deleteClient removed this).client c).inGroup = (before.client c).inGroup := by
    by_cases here : c = this
    · rw [here,self]
      exact cleaned.outside.symm
    · rw [same here]
  have transientFor : TransientFor (deleteClient removed this) = TransientFor before := by
    funext t m
    by_cases here : t = this
    · rw [TransientFor,TransientFor,here,self,cleaned.noMain]
      rfl
    · rw [TransientFor,TransientFor,same here]
  have known (c : ClientRef) : c ∈ (deleteClient removed this).managed ↔ c ∈ before.managed ∧ c ≠ this := managed c
  have isRoot : (deleteClient removed this).rootWindow = before.rootWindow := root
  obtain ⟨windows,_,listed,entries,absent,noMain,nobody,grouped,outside⟩ := cleaned
  refine ⟨⟨fun c there => ?_,fun c there => ?_,fun c thereC d thereD equal => ?_,fun t m main => ?_,fun t main => ?_,
    fun c unknown => ?_,?_⟩,⟨fun c g => ?_,groups.fresh,fun c inGroup => ?_⟩,⟨fun t m main => ?_,fun c t entry => ?_⟩,
    fun c there => ?_⟩
  · obtain ⟨old,other⟩ := (known c).mp there
    refine mem_removeAll.mpr ⟨?_,other⟩
    rw [objects]
    exact windows.managed c old
  · obtain ⟨old,other⟩ := (known c).mp there
    rw [same other,isRoot]
    exact windows.exist c old
  · obtain ⟨oldC,otherC⟩ := (known c).mp thereC
    obtain ⟨oldD,otherD⟩ := (known d).mp thereD
    rw [same otherC,same otherD] at equal
    exact windows.unique c oldC d oldD equal
  · rw [transientFor] at main
    have otherT : t ≠ this := by
      rintro rfl
      rw [TransientFor,noMain] at main
      cases main
    have otherM : m ≠ this := by
      rintro rfl
      exact nobody t main
    rw [known,same otherT,same otherM]
    obtain ⟨old,id⟩ := windows.link t m main
    exact ⟨⟨old,otherM⟩,id⟩
  · by_cases here : t = this
    · rw [here,self]
      exact Or.inl rfl
    · rw [same here] at main ⊢
      rw [isRoot]
      exact windows.unlinked t main
  · by_cases here : c = this
    · rw [here,self]
      rfl
    · rw [same here]
      refine windows.unknown c fun old => unknown (mem_removeAll.mpr ⟨?_,here⟩)
      rw [objects]
      exact old
  · rw [transientFor]
    exact windows.acyclic
  · rw [group,← client]
    exact groups.member c g
  · rw [group,← client] at inGroup
    refine mem_removeAll.mpr ⟨groups.object c inGroup,?_⟩
    rintro rfl
    rw [client] at inGroup
    exact inGroup outside
  · rw [transientFor] at main
    have otherM : m ≠ this := by
      rintro rfl
      exact nobody t main
    rw [same otherM]
    exact listed t m main
  · have otherC : c ≠ this := by
      rintro rfl
      rw [self] at entry
      cases entry
    rw [same otherC] at entry
    have otherT : t ≠ this := by
      rintro rfl
      exact absent c entry
    have transient : (deleteClient removed this).groupTransient t = before.groupTransient t := by
      rw [Workspace.groupTransient,same otherT,isRoot,Workspace.groupTransient]
    rw [transientFor,transient,groupOf,groupOf,group,group]
    exact entries c otherC t entry
  · obtain ⟨old,other⟩ := (known c).mp there
    rw [groupOf,group]
    exact grouped c old other

end

section
variable {ws : Workspace} (good : Good ws)
include good

theorem mem_mainClients {c t : ClientRef} (entry : t ∈ (ws.client c).transientsList) : c ∈ ws.mainClients t := by
  unfold Workspace.mainClients
  rcases good.lists.entries c t entry with main | ⟨groupTransient,same,grouped⟩
  · rw [isTransient_of_transientFor main,show (ws.client t).transientFor = some c from main]
    exact List.mem_singleton_self c
  · have noMain := good.windows.noMain groupTransient
    have isTransient := isTransient_of_groupTransient groupTransient
    rw [isTransient,noMain]
    refine List.mem_filter.mpr ⟨(mem_groupMembers good.groups).mpr ⟨same.symm,same ▸ grouped⟩,?_⟩
    exact (hasTransient_direct noMain).mpr ⟨isTransient,same.symm,entry⟩

theorem listed_of_mem_mainClients {c t : ClientRef} (main : c ∈ ws.mainClients t) : t ∈ (ws.client c).transientsList := by
  unfold Workspace.mainClients at main
  split at main
  · cases main
  · split at main
    · rename_i m transientFor
      rw [List.mem_singleton.mp main]
      exact good.lists.listed t m transientFor
    · rename_i noMain
      exact ((hasTransient_direct noMain).mp (List.mem_filter.mp main).2).2.2

end

/-- The workspace at its start. -/
def fresh (rootWindow : WindowId) (rootExists : rootWindow ≠ windowNone) : Workspace where
  rootWindow := rootWindow
  rootExists := rootExists
  objects := []
  client := fun _ => NewWindow.client ⟨windowNone,.Unknown,false,windowNone⟩
  clients := []
  desktops := []
  groups := []
  group := fun _ => ⟨windowNone,[],0⟩
  nextGroup := 0

theorem fresh_good (rootWindow : WindowId) (rootExists : rootWindow ≠ windowNone) : Good (fresh rootWindow rootExists) := by
  refine ⟨⟨?_,?_,?_,?_,fun _ _ => Or.inl rfl,fun _ _ => rfl,fun c cycle => ?_⟩,⟨?_,?_,?_⟩,⟨?_,?_⟩,?_⟩
  case refine_5 =>
    obtain ⟨m,main,_⟩ := TransGen.head'_iff.mp cycle
    cases main
  all_goals simp [fresh,Workspace.managed,TransientFor,NewWindow.client]

/-- What happens to the windows. -/
inductive Op
  | manage (parent : WindowId → Option WindowId) (c : ClientRef) (new : NewWindow) (windowGroup : WindowId)
      (value : Option WindowId)
  | readTransient (parent : WindowId → Option WindowId) (c : ClientRef) (value : Option WindowId)
  | checkTransient (parent : WindowId → Option WindowId) (c : ClientRef) (w : WindowId)
  | removeTransient (c cl : ClientRef)
  | getWMHints (c : ClientRef) (windowGroup : WindowId)
  | checkGroup (c : ClientRef) (set_group : Option GroupRef) (force : Bool)
  | changeClientLeaderGroup (c : ClientRef) (gr : GroupRef)
  | findClientLeaderGroup (c : ClientRef)
  | destroyClient (c : ClientRef)

/-- The operation is about windows and groups that are there, or about a new window. -/
def Allowed (ws : Workspace) : Op → Prop
  | .manage parent c new _ _ => IsTree parent ∧ c ∉ ws.objects ∧ IsNew ws new.window
  | .readTransient parent c _ => IsTree parent ∧ c ∈ ws.managed
  | .checkTransient parent c _ => IsTree parent ∧ c ∈ ws.managed
  | .removeTransient c cl => c ∈ ws.managed ∧ cl ∈ ws.managed
  | .getWMHints c _ => c ∈ ws.managed
  | .checkGroup c set_group _ => c ∈ ws.managed ∧ ∀ g, set_group = some g → g ∈ ws.groups
  | .changeClientLeaderGroup c gr => c ∈ ws.managed ∧ gr ∈ ws.groups
  | .findClientLeaderGroup c => c ∈ ws.managed
  | .destroyClient c => c ∈ ws.managed

/-- The operation has been performed. -/
def Performs (before : Workspace) (op : Op) (after : Workspace) : Prop :=
  match op with
  | .manage parent c new windowGroup value => Manage before parent c new windowGroup value after
  | .readTransient parent c value => ReadTransient before parent c value after
  | .checkTransient parent c w => CheckTransient before parent c w after
  | .removeTransient c cl => after = removeTransient before c cl
  | .getWMHints c windowGroup => after = getWMHints before c windowGroup
  | .checkGroup c set_group force => after = checkGroup before c set_group force
  | .changeClientLeaderGroup c gr => after = changeClientLeaderGroup before c gr
  | .findClientLeaderGroup c => after = (findClientLeaderGroup before c).1
  | .destroyClient c => after = destroyClient before c

def Step (before : Workspace) (op : Op) (after : Workspace) : Prop := Allowed before op ∧ Performs before op after

section
variable {ws : Workspace} (good : Good ws)
include good

theorem performs_ends {op : Op} (allowed : Allowed ws op) : ∃ after, Performs ws op after := by
  cases op with
  | manage parent c new windowGroup value =>
    exact manage_ends good allowed.1 allowed.2.1 new allowed.2.2 windowGroup value
  | readTransient parent c value => exact readTransient_ends good allowed.1 c value
  | checkTransient parent c w => exact checkTransient_ends good allowed.1 c w
  | removeTransient c cl => exact ⟨_,rfl⟩
  | getWMHints c windowGroup => exact ⟨_,rfl⟩
  | checkGroup c set_group force => exact ⟨_,rfl⟩
  | changeClientLeaderGroup c gr => exact ⟨_,rfl⟩
  | findClientLeaderGroup c => exact ⟨_,rfl⟩
  | destroyClient c => exact ⟨_,rfl⟩

theorem step_good {op : Op} {after : Workspace} (step : Step ws op after) : Good after := by
  obtain ⟨allowed,performs⟩ := step
  have object {c : ClientRef} (member : c ∈ ws.managed) : c ∈ ws.objects := good.windows.managed c member
  cases op with
  | manage parent c new windowGroup value => exact manage_good good allowed.2.1 allowed.2.2 performs
  | readTransient parent c value => exact (readTransient_kept good (object allowed.2) performs).good
  | checkTransient parent c w => exact (checkTransient_kept good (object allowed.2) performs).good
  | removeTransient c cl =>
    rw [show after = _ from performs]
    exact removeTransient_good good c cl
  | getWMHints c windowGroup =>
    rw [show after = _ from performs]
    exact (getWMHints_kept good (object allowed) windowGroup).1
  | checkGroup c set_group force =>
    rw [show after = _ from performs]
    exact (checkGroup_good good allowed.2 (object allowed.1) force).1
  | changeClientLeaderGroup c gr =>
    rw [show after = _ from performs]
    exact (changeClientLeaderGroup_good good allowed.2 (object allowed.1)).1
  | findClientLeaderGroup c =>
    rw [show after = _ from performs]
    exact (findClientLeaderGroup_searched good c).good
  | destroyClient c =>
    rw [show after = _ from performs]
    exact destroyClient_good good allowed

end

theorem run_good {rootWindow : WindowId} {rootExists : rootWindow ≠ windowNone} {ops : List Op} {ws : Workspace}
    (run : Run Step (fresh rootWindow rootExists) ops ws) : Good ws :=
  run.invariant (fun _ _ _ good step => step_good good step) (fresh_good rootWindow rootExists)

/-- A window is mapped, without a property or with one that names its main window. -/
private def mapped (ws : Workspace) (c : ClientRef) (new : NewWindow) (windowGroup w : WindowId) : Workspace :=
  appendClient (setTransient (setOriginalTransientForId (getWMHints (construct ws c new) c windowGroup) c w) c w) c

/-- Every window is a child of the root window. -/
private def flat : WindowId → Option WindowId := fun _ => none

private theorem flat_isTree : IsTree flat := ⟨fun w => ⟨w,fun _ up => by cases up⟩⟩

private def withDialog : Workspace :=
  mapped (mapped (fresh 1 one_exists) 0 ⟨10,.Normal,false,0⟩ 10 0) 1 ⟨11,.Dialog,false,0⟩ 10 10

private theorem withDialog_run : Run Step (fresh 1 (by decide))
    [.manage flat 0 ⟨10,.Normal,false,0⟩ 10 none,.manage flat 1 ⟨11,.Dialog,false,0⟩ 10 (some 10)] withDialog := by
  have window : Manage (fresh 1 (by decide)) flat 0 ⟨10,.Normal,false,0⟩ 10 none
      (mapped (fresh 1 (by decide)) 0 ⟨10,.Normal,false,0⟩ 10 0) :=
    ⟨_,⟨⟨windowNone,none⟩,rfl,rfl⟩,show Run _ _ [0] _ from .cons ((if_pos (by decide)).mpr rfl) (.nil _)⟩
  have dialog : Manage (mapped (fresh 1 (by decide)) 0 ⟨10,.Normal,false,0⟩ 10 0) flat 1 ⟨11,.Dialog,false,0⟩ 10 (some 10)
      withDialog :=
    ⟨_,⟨⟨10,none⟩,⟨10,⟨1,rfl⟩,10,⟨3,rfl⟩,rfl⟩,rfl⟩,show Run _ _ [0,1] _ from
      .cons ((if_pos (by decide)).mpr rfl) (.cons ((if_pos (by decide)).mpr rfl) (.nil _))⟩
  exact .cons ⟨⟨flat_isTree,by decide,⟨by decide,by decide⟩⟩,window⟩
    (.cons ⟨⟨flat_isTree,by decide,⟨by decide,by decide⟩⟩,dialog⟩ (.nil _))

/-- In every state that a run reaches, `verifyTransientFor` ends for every requested
    id, every operation comes to its end, and main windows make no cycle. -/
theorem run_transientFor_acyclic {rootWindow : WindowId} {rootExists : rootWindow ≠ windowNone} {ops : List Op}
    {ws : Workspace} (run : Run Step (fresh rootWindow rootExists) ops ws) :
    (∀ parent this new_transient_for set, IsTree parent →
      ∃ result, VerifyTransientFor ws parent this new_transient_for set result) ∧
    (∀ op, Allowed ws op → ∃ after, Performs ws op after) ∧ Acyclic (TransientFor ws) := by
  have good := run_good run
  exact ⟨fun _ this new_transient_for set tree => verifyTransientFor_ends good.windows tree this new_transient_for set,
    fun _ allowed => performs_ends good allowed,good.windows.acyclic⟩

/-- The window asks to be transient for its own dialog, and is a group transient from then on. -/
theorem run_transientFor_acyclic_loop :
    let ws := setTransient (setOriginalTransientForId withDialog 0 11) 0 1
    ws.groupTransient 0 = true ∧ (∃ result, VerifyTransientFor ws flat 1 11 true result) ∧
      (∃ after, Performs ws (.destroyClient 0) after) ∧ Acyclic (TransientFor ws) := by
  have read : ReadTransient withDialog flat 0 (some 11) (setTransient (setOriginalTransientForId withDialog 0 11) 0 1) :=
    ⟨⟨1,none⟩,⟨11,⟨1,rfl⟩,1,⟨3,rfl⟩,rfl⟩,rfl⟩
  have step : Step withDialog (.readTransient flat 0 (some 11)) _ := ⟨⟨flat_isTree,by decide⟩,read⟩
  obtain ⟨verified,ends,acyclic⟩ := run_transientFor_acyclic (withDialog_run.append (.cons step (.nil _)))
  exact ⟨by decide,verified flat 1 11 true flat_isTree,ends (.destroyClient 0) (show 0 ∈ _ by decide),acyclic⟩

/-- In every state that a run reaches, every client is a member of exactly the group
    it points to, and lists of transients and main clients agree. -/
theorem run_consistent {rootWindow : WindowId} {rootExists : rootWindow ≠ windowNone} {ops : List Op}
    {ws : Workspace} (run : Run Step (fresh rootWindow rootExists) ops ws) :
    (∀ c ∈ ws.managed, ∃ g ∈ ws.groups, (ws.client c).inGroup = some g ∧
      ∀ h ∈ ws.groups, c ∈ (ws.group h).members ↔ h = g) ∧
    (∀ g ∈ ws.groups, ∀ c ∈ (ws.group g).members, (ws.client c).inGroup = some g) ∧
    (∀ c t, t ∈ (ws.client c).transientsList → c ∈ ws.mainClients t) ∧
    (∀ t c, c ∈ ws.mainClients t → t ∈ (ws.client c).transientsList) := by
  have good := run_good run
  refine ⟨fun c member => ?_,fun g alive c member => (good.groups.member c g).mpr ⟨alive,member⟩,
    fun c t => mem_mainClients good,fun t c => listed_of_mem_mainClients good⟩
  cases inGroup : (ws.client c).inGroup with
  | none => exact absurd inGroup (good.grouped c member)
  | some g =>
    refine ⟨g,(good.groups.alive inGroup).1,rfl,fun h alive => ?_⟩
    have pointed := good.groups.member c h
    rw [inGroup] at pointed
    constructor
    · exact fun member => (Option.some.inj (pointed.mpr ⟨alive,member⟩)).symm
    · rintro rfl
      exact (pointed.mp rfl).2

/-- A group transient comes, and the window goes away. -/
theorem run_consistent_group_transient :
    let ws := destroyClient (mapped withDialog 2 ⟨12,.Dialog,false,0⟩ 10 1) 0
    ws.managed = [1,2] ∧ 2 ∈ (ws.client 1).transientsList ∧ 1 ∈ ws.mainClients 2 := by
  intro ws
  have manage : Manage withDialog flat 2 ⟨12,.Dialog,false,0⟩ 10 (some 1) (mapped withDialog 2 ⟨12,.Dialog,false,0⟩ 10 1) :=
    ⟨_,⟨⟨1,none⟩,⟨1,⟨1,rfl⟩,1,⟨1,rfl⟩,rfl⟩,rfl⟩,show Run _ _ [0,1,2] _ from .cons ((if_pos (by decide)).mpr rfl)
      (.cons ((if_pos (by decide)).mpr rfl) (.cons ((if_pos (by decide)).mpr rfl) (.nil _)))⟩
  have comes : Step withDialog (.manage flat 2 ⟨12,.Dialog,false,0⟩ 10 (some 1)) _ :=
    ⟨⟨flat_isTree,by decide,⟨by decide,by decide⟩⟩,manage⟩
  have goes : Step (mapped withDialog 2 ⟨12,.Dialog,false,0⟩ 10 1) (.destroyClient 0) ws := ⟨show 0 ∈ _ by decide,rfl⟩
  have entry : 2 ∈ (ws.client 1).transientsList := by decide
  exact ⟨by decide,entry,(run_consistent (withDialog_run.append (.cons comes (.cons goes (.nil ws))))).2.2.1 1 2 entry⟩

end KdeWorkspace.TransiencyRuns
