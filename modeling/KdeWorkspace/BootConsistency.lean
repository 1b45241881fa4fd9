import KdeWorkspace.BootOptions

/-!
A boot option that is listed is accepted, and it is what is booted, as long as the functions which list,
choose and commit read the same menu and read it in the same way.

The legacy Grub lists titles that it does not find again, as it chooses among the lines as they are.
Grub 2 remembers the name that the helper wants and looks for it in the menu, which lists it with
other separators. Burg chooses among the entries of Grub 2.
-/
namespace KdeWorkspace.BootOptions
open List Option
open PipeCodec (Bytes)
open SessionList (text)

theorem strstr_none_iff {before : Bytes} (some : before ≠ []) (str : Bytes) :
    strstr before str = none ↔ ¬before <:+: str := by
  induction str with
  | nil => simp [strstr,some]
  | cons c rest ih =>
    unfold strstr
    by_cases here : before <+: c :: rest
    · simp [here,here.isInfix]
    · simp [here,ih,infix_cons_iff]

theorem strstr_some {before str front behind : Bytes} (found : strstr before str = some (front,behind)) :
    str = front ++ before ++ behind ∧ (before ≠ [] → ¬before <:+: front ++ before.dropLast) := by
  induction str generalizing front with
  | nil =>
    unfold strstr at found
    split at found
    · rename_i none
      cases found
      exact ⟨by simp [none],fun some => absurd none some⟩
    · cases found
  | cons c rest ih =>
    unfold strstr at found
    split at found
    · rename_i here
      obtain ⟨tail,whole⟩ := here
      cases found
      refine ⟨by simp [← whole],fun some inside => ?_⟩
      have short := inside.length_le
      have positive : 0 < before.length := length_pos_iff.mpr some
      simp at short
      omega
    · rename_i elsewhere
      obtain ⟨⟨front',behind'⟩,found',same⟩ := map_eq_some_iff.mp found
      cases same
      obtain ⟨whole,first⟩ := ih found'
      refine ⟨by simp [whole],fun some inside => ?_⟩
      rcases infix_cons_iff.mp (by simpa using inside) with here | later
      · apply elsewhere
        rw [whole]
        refine here.trans ?_
        obtain ⟨init,last,split⟩ : ∃ init last, before = init ++ [last] := ⟨_,_,(dropLast_append_getLast some).symm⟩
        simp [split]
      · exact first some later

theorem infix_of_earlier {before front front' behind behind' : Bytes} (some : before ≠ [])
    (same : front' ++ before ++ behind' = front ++ before ++ behind) (earlier : front'.length < front.length) :
    before <:+: front ++ before.dropLast := by
  have ends : front ++ before.dropLast <+: front ++ before ++ behind := by
    rw [append_assoc]
    exact (prefix_append_right_inj front).mpr ((List.dropLast_prefix before).trans (prefix_append _ _))
  have positive : 0 < before.length := length_pos_iff.mpr some
  have inside : front' ++ before <+: front ++ before.dropLast := by
    refine prefix_of_prefix_length_le (same ▸ prefix_append _ behind') ends ?_
    simp
    omega
  exact (suffix_append front' before).isInfix.trans inside.isInfix

theorem strstr_first {before front : Bytes} (some : before ≠ []) (first : ¬before <:+: front ++ before.dropLast)
    (behind : Bytes) : strstr before (front ++ before ++ behind) = Option.some (front,behind) := by
  cases found : strstr before (front ++ before ++ behind) with
  | none =>
    have absent := (strstr_none_iff some _).mp found
    exact absurd ⟨front,behind,rfl⟩ absent
  | some parts =>
    obtain ⟨front',behind'⟩ := parts
    obtain ⟨whole,first'⟩ := strstr_some found
    rcases Nat.lt_trichotomy front'.length front.length with earlier | same | later
    · exact absurd (infix_of_earlier some whole.symm earlier) first
    · rw [append_assoc,append_assoc] at whole
      obtain ⟨rfl,rest⟩ := append_inj whole same.symm
      rw [append_cancel_left rest]
    · exact absurd (infix_of_earlier some whole later) (first' some)

theorem behind_shorter {before str front behind : Bytes} (some : before ≠ [])
    (found : strstr before str = .some (front,behind)) : behind.length < str.length := by
  have positive : 0 < before.length := length_pos_iff.mpr some
  rw [(strstr_some found).1]
  simp
  omega

theorem replaceFirst_succ {before : Bytes} (some : before ≠ []) (after : Bytes) {n : Nat} {str : Bytes}
    (enough : str.length ≤ n) : replaceFirst before after (n+1) str = replaceFirst before after n str := by
  induction n generalizing str with
  | zero =>
    have empty : str = [] := length_eq_zero_iff.mp (Nat.le_zero.mp enough)
    simp [replaceFirst,strstr,empty,some]
  | succ n ih =>
    rw [replaceFirst,replaceFirst]
    cases found : strstr before str with
    | none => rfl
    | some parts =>
      obtain ⟨front,behind⟩ := parts
      have shorter := behind_shorter some found
      simp only
      rw [ih (by omega)]

theorem replaceFirst_enough {before : Bytes} (some : before ≠ []) (after : Bytes) {n : Nat} {str : Bytes}
    (enough : str.length ≤ n) : replaceFirst before after n str = replaceInString str before after := by
  unfold replaceInString
  induction n,enough using Nat.le_induction with
  | base => rfl
  | succ n enough ih => rw [replaceFirst_succ some after enough,ih]

theorem replaceInString_none {before str : Bytes} (found : strstr before str = none) (after : Bytes) :
    replaceInString str before after = str := by
  unfold replaceInString
  cases str.length with
  | zero => rfl
  | succ n => rw [replaceFirst,found]

theorem replaceInString_some {before str front behind : Bytes} (some : before ≠ [])
    (found : strstr before str = .some (front,behind)) (after : Bytes) :
    replaceInString str before after = front ++ after ++ replaceInString behind before after := by
  have shorter := behind_shorter some found
  obtain ⟨n,size⟩ : ∃ n, str.length = n+1 := ⟨str.length-1,by omega⟩
  rw [← replaceFirst_enough some after (Nat.le_refl _),size,replaceFirst,found,
    ← replaceFirst_enough some after (show behind.length ≤ n by omega)]

theorem replaceInString_same {c d : UInt8} (other : c ≠ d) (before after str : Bytes) :
    replaceInString str (c :: before) (d :: after) = str ↔ ¬c :: before <:+: str := by
  have some : c :: before ≠ [] := cons_ne_nil c before
  cases found : strstr (c :: before) str with
  | none => simp [replaceInString_none found,(strstr_none_iff some str).mp found]
  | some parts =>
    obtain ⟨front,behind⟩ := parts
    have whole := (strstr_some found).1
    have inside : c :: before <:+: str := ⟨front,behind,whole.symm⟩
    rw [replaceInString_some some found]
    refine iff_of_false (fun same => ?_) (not_not_intro inside)
    rw [whole] at same
    simp at same
    exact other same.1.symm

theorem replaceInString_front {c d : UInt8} (other : c ≠ d) {before after title rest result : Bytes} :
    replaceInString (title ++ c :: before ++ rest) (c :: before) (d :: after) = title ++ d :: after ++ result ↔
      ¬c :: before <:+: title ++ (c :: before).dropLast ∧ replaceInString rest (c :: before) (d :: after) = result := by
  have some : c :: before ≠ [] := cons_ne_nil c before
  constructor
  · intro same
    have present : strstr (c :: before) (title ++ c :: before ++ rest) ≠ none :=
      fun none => (strstr_none_iff some _).mp none ⟨title,rest,rfl⟩
    obtain ⟨⟨front,behind⟩,found⟩ := ne_none_iff_exists'.mp present
    obtain ⟨whole,first⟩ := strstr_some found
    rw [replaceInString_some some found] at same
    rcases Nat.lt_trichotomy front.length title.length with earlier | level | later
    · -- where the separator was, one result has the replacement and the other the separator
      have there := congrArg (·[front.length]?) whole
      have here := congrArg (·[front.length]?) same
      simp [getElem?_append,earlier] at there here
      exact absurd (there.symm.trans here.symm) other
    · rw [append_assoc,append_assoc] at whole
      obtain ⟨rfl,tail⟩ := append_inj whole level.symm
      obtain rfl := append_cancel_left tail
      exact ⟨first some,append_cancel_left same⟩
    · exact absurd (infix_of_earlier some whole later) (first some)
  · rintro ⟨first,same⟩
    rw [replaceInString_some some (strstr_first some first rest),same]

/-- An entry of the menu of Grub 2 or Burg, in the submenus that it belongs to. -/
inductive Entry
  | top (title : Bytes)
  | inside (menu : Entry) (title : Bytes)
deriving Repr, DecidableEq

/-- The titles on the way to the entry. -/
def Entry.join (sep : Bytes) : Entry → Bytes
  | .top title => title
  | .inside menu title => menu.join sep ++ sep ++ title

def Entry.extend : Option Entry → Bytes → Entry
  | some menu,title => .inside menu title
  | none,title => .top title

/-- The name that the helper is called with. -/
def Entry.name (e : Entry) : Bytes := e.join (text ">")

/-- No separator is met before the one behind the title of a submenu. -/
def Entry.Clear : Entry → Prop
  | .top title => ¬SEP <:+: title ++ SEP.dropLast
  | .inside menu title => menu.Clear ∧ ¬SEP <:+: title ++ SEP.dropLast

/-- No separator is met but those between the titles. -/
def Entry.Separated : Entry → Prop
  | .top title => ¬SEP <:+: title
  | .inside menu title => menu.Clear ∧ ¬SEP <:+: title

theorem SEP_eq : SEP = 32 :: [62,62,32] := by decide

theorem name_eq : text ">" = 62 :: [] := by decide

theorem Entry.replace_front (menu : Entry) {rest result : Bytes} :
    replaceInString (menu.join SEP ++ SEP ++ rest) SEP (text ">") = menu.join (text ">") ++ text ">" ++ result ↔
      menu.Clear ∧ replaceInString rest SEP (text ">") = result := by
  induction menu generalizing rest result with
  | top title =>
    unfold join Clear
    rw [SEP_eq,name_eq]
    exact replaceInString_front (by decide)
  | inside menu title ih =>
    unfold join Clear
    have front : replaceInString (title ++ SEP ++ rest) SEP (text ">") = title ++ text ">" ++ result ↔
        ¬SEP <:+: title ++ SEP.dropLast ∧ replaceInString rest SEP (text ">") = result := by
      rw [SEP_eq,name_eq]
      exact replaceInString_front (by decide)
    have step := @ih (title ++ SEP ++ rest) (title ++ text ">" ++ result)
    rw [front] at step
    simp only [append_assoc] at step ⊢
    rw [step,and_assoc]

theorem Entry.replace_iff (e : Entry) : replaceInString (e.join SEP) SEP (text ">") = e.name ↔ e.Separated := by
  have last (title : Bytes) : replaceInString title SEP (text ">") = title ↔ ¬SEP <:+: title := by
    rw [SEP_eq,name_eq]
    exact replaceInString_same (by decide) _ _ _
  cases e with
  | top title => exact last title
  | inside menu title =>
    unfold name join Separated
    rw [menu.replace_front,last]

theorem scanLine_map {α β : Type} {appα : Option α → Bytes → α} {appβ : Option β → Bytes → β} {f : α → β}
    (same : ∀ menu title, f (appα menu title) = appβ (menu.map f) title) (scan : Scan α) (line : Bytes) :
    scanLine appβ ⟨scan.opts.map f,scan.menus,scan.menuLvl,scan.inEntry,scan.saved⟩ line =
      (scanLine appα scan line).map fun scan =>
        ⟨scan.opts.map f,scan.menus,scan.menuLvl,scan.inEntry,scan.saved⟩ := by
  have built (title : Bytes) :
      buildBootList appβ ⟨scan.opts.map f,scan.menus,scan.menuLvl,scan.inEntry,scan.saved⟩ title =
        (buildBootList appα scan title).map (map f) := by
    unfold buildBootList
    cases parseGrubTitle title with
    | none => rfl
    | some title =>
      simp only [map_some,map_append,map_cons,map_nil,same]
      split
      · cases scan.menus[scan.menuLvl-1]? with
        | none => rfl
        | some menu => simp
      · rfl
  unfold scanLine
  cases menuLine line with
  | savedEntry => rfl
  | menuentry title =>
    simp only [built]
    split
    · cases buildBootList appα scan title <;> rfl
    · rfl
  | submenu title =>
    simp only [built]
    split
    · cases buildBootList appα scan title <;> simp
    · rfl
  | close =>
    simp only
    split <;> rfl
  | other => rfl

theorem menuOpts_map {α β : Type} {appα : Option α → Bytes → α} {appβ : Option β → Bytes → β} {f : α → β}
    (same : ∀ menu title, f (appα menu title) = appβ (menu.map f) title) (content : Bytes) :
    menuOpts appβ content = (menuOpts appα content).map (List.map f) := by
  have scanned (scan : Scan α) (menu : List Bytes) :
      scanLines appβ ⟨scan.opts.map f,scan.menus,scan.menuLvl,scan.inEntry,scan.saved⟩ menu =
        (scanLines appα scan menu).map fun scan =>
          ⟨scan.opts.map f,scan.menus,scan.menuLvl,scan.inEntry,scan.saved⟩ := by
    induction menu generalizing scan with
    | nil => rfl
    | cons line rest ih =>
      unfold scanLines at ih ⊢
      rw [foldlM_cons,foldlM_cons,scanLine_map same]
      cases scanLine appα scan line with
      | none => rfl
      | some next => exact ih next
  unfold menuOpts
  have all := scanned Scan.start (lines 1000 content)
  unfold Scan.start at all ⊢
  rw [map_nil] at all
  rw [all]
  cases scanLines appα _ (lines 1000 content) with
  | none => rfl
  | some scan =>
    simp only [map_some]
    split <;> rfl

theorem menuOpts_join (content : Bytes) :
    menuOpts strApp content = (menuOpts Entry.extend content).map (List.map (Entry.join SEP)) := by
  apply menuOpts_map
  intro menu title
  cases menu <;> rfl

def grub2File (w : World) : String :=
  if w.file "/boot/grub2/grub.cfg" ≠ .absent then "/boot/grub2/grub.cfg" else "/boot/grub/grub.cfg"

def menuFile : BootManager → World → String
  | .Burg,_ => "/boot/burg/burg.cfg"
  | _,w => grub2File w

/-- The entries of the menu of Grub 2 or Burg. -/
def menu (b : BootManager) (w : World) : List Entry :=
  (((w.fopen (menuFile b w)).bind (menuOpts Entry.extend)).toOption).getD []

/-- What `setGrub2` finds. -/
def offered (w : World) : List Bytes := (menu .Grub2 w).map (Entry.join SEP)

/-- The titles of the legacy Grub in lines that are not indented, with the blanks behind them. -/
def titles (w : World) : List Bytes :=
  (((w.fopen GRUB_MENU).map fun content =>
    (lines 1000 content).filterMap (matchKey · (text "title"))).toOption).getD []

/-- The first of them that reads so. -/
def First (names : List Bytes) (opt : Bytes) (k : Nat) : Prop := names[k]? = some opt ∧ opt ∉ names.take k

theorem findTitle_iff (opt : Bytes) (i j : Nat) (menu : List Bytes) :
    findTitle opt i menu = some j ↔
      ∃ k, j = i+k ∧ First (menu.filterMap (matchKey · (text "title"))) opt k := by
  induction menu generalizing i with
  | nil => simp [findTitle,First]
  | cons line rest ih =>
    unfold findTitle
    rw [filterMap_cons]
    cases title : matchKey line (text "title") with
    | none => exact ih i
    | some ptr =>
      simp only
      by_cases same : ptr = opt
      · simp only [same,if_true,some.injEq]
        constructor
        · rintro rfl
          exact ⟨0,rfl,by simp [First]⟩
        · rintro ⟨k,rfl,-,before⟩
          cases k with
          | zero => rfl
          | succ k => simp at before
      · simp only [same,if_false,ih]
        constructor
        · rintro ⟨k,rfl,at_k,before⟩
          exact ⟨k+1,by omega,by simpa using at_k,by simp [before,Ne.symm same]⟩
        · rintro ⟨k,rfl,at_k,before⟩
          cases k with
          | zero => simp [same] at at_k
          | succ k => exact ⟨k,by omega,by simpa using at_k,fun inside => before (by simp [inside])⟩

theorem setGrub_iff (w : World) (opt : Bytes) (r : SdRec) :
    setGrub w opt = .ok r ↔ ∃ k, r = ⟨some opt,w.mTime GRUB_MENU,k⟩ ∧ First (titles w) opt k := by
  unfold setGrub titles
  cases w.fopen GRUB_MENU with
  | error e => simp [Except.map,Except.toOption,First]
  | ok content =>
    simp only [Except.map,Except.toOption,getD_some]
    have found (j : Nat) := findTitle_iff opt 0 j (lines 1000 content)
    simp only [Nat.zero_add] at found
    cases search : findTitle opt 0 (lines 1000 content) with
    | none =>
      simp only [search] at found
      simp only [reduceCtorEq,false_iff]
      rintro ⟨k,-,first⟩
      cases (found k).mpr ⟨k,rfl,first⟩
    | some j =>
      obtain ⟨k,rfl,first⟩ := (found j).mp search
      simp only [Except.ok.injEq]
      constructor
      · rintro rfl
        exact ⟨j,rfl,first⟩
      · rintro ⟨i,rfl,first'⟩
        have same := (found i).mpr ⟨i,rfl,first'⟩
        rw [search] at same
        cases same
        rfl

theorem getGrub2_eq (w : World) (g : Globals) : ∃ exec, getGrub2 w g = getGrub2OrBurg w g (grub2File w) exec := by
  unfold getGrub2 grub2File
  split
  · exact ⟨_,rfl⟩
  · exact ⟨_,rfl⟩

variable {g : Globals}

theorem getGrub2OrBurg_located (located : g.grubReboot.isSome) (w : World) (file exec : String) :
    getGrub2OrBurg w g file exec =
      ((w.fopen file).bind fun content => (menuOpts strApp content).map (⟨·,-1,-1⟩),
        { g with grubConfig := some file }) := by
  obtain ⟨program,known⟩ := isSome_iff_exists.mp located
  simp [getGrub2OrBurg,known]

variable {w : World} {l : Listing}

theorem getGrub2OrBurg_ok {g g' : Globals} {file exec : String} (listed : getGrub2OrBurg w g file exec = (.ok l,g')) :
    g'.grubReboot.isSome ∧
      l.opts = ((((w.fopen file).bind (menuOpts Entry.extend)).toOption).getD []).map (Entry.join SEP) := by
  unfold getGrub2OrBurg at listed
  dsimp only at listed
  generalize (if g.grubReboot.isSome then _ else _ : Globals) = g₁ at listed
  split at listed
  · cases listed
  · rename_i located
    obtain ⟨read,rfl⟩ := Prod.mk.inj listed
    refine ⟨by simpa [isSome_iff_ne_none] using located,?_⟩
    cases opened : w.fopen file with
    | error e => simp [opened,Except.bind] at read
    | ok content =>
      rw [opened,Except.bind,menuOpts_join] at read
      rw [Except.bind]
      cases entries : menuOpts Entry.extend content with
      | error e => simp [entries,Except.map] at read
      | ok entries =>
        rw [entries] at read
        cases read
        rfl

theorem getGrub2_located (located : g.grubReboot.isSome) (w : World) :
    getGrub2 w g = ((w.fopen (grub2File w)).bind fun content => (menuOpts strApp content).map (⟨·,-1,-1⟩),
      { g with grubConfig := some (grub2File w) }) := by
  obtain ⟨exec,same⟩ := getGrub2_eq w g
  rw [same,getGrub2OrBurg_located located]

theorem setGrub2_located (located : g.grubReboot.isSome) (w : World) (sdr : SdRec) (opt : Bytes) :
    (setGrub2 w g sdr opt).2 = { g with grubConfig := some (grub2File w) } ∧
    ∀ r, (setGrub2 w g sdr opt).1 = .ok r ↔ opt ∈ offered w ∧
      r = { sdr with osname := some (replaceInString opt SEP (text ">")),bmstamp := w.mTime (grub2File w) } := by
  unfold setGrub2 offered menu menuFile
  rw [getGrub2_located located]
  cases w.fopen (grub2File w) with
  | error e => simp [Except.bind,Except.toOption]
  | ok content =>
    simp only [Except.bind,menuOpts_join]
    cases menuOpts Entry.extend content with
    | error e => simp [Except.map,Except.toOption]
    | ok entries =>
      simp only [Except.map,Except.toOption,getD_some]
      split
      · rename_i inside
        simp [inside,configTime,eq_comm]
      · rename_i outside
        simp [outside]

theorem commitGrub2_located (located : g.grubReboot.isSome) (w : World) (r : SdRec) {name : Bytes}
    (chosen : r.osname = some name) (command : Command) :
    commitGrub2 w g r name = some command ↔
      (r.bmstamp = configTime w g ∧ ∃ program, command = .reboot program name ∧ g.grubReboot = some program) ∨
      (r.bmstamp ≠ configTime w g ∧ name ∈ offered w ∧
        ∃ program, command = .reboot program (replaceInString name SEP (text ">")) ∧ g.grubReboot = some program) := by
  obtain ⟨program,known⟩ := isSome_iff_exists.mp located
  obtain ⟨kept,accepted⟩ := setGrub2_located located w r name
  unfold commitGrub2
  by_cases same : r.bmstamp = configTime w g
  · simp [same,known,chosen,eq_comm]
  · simp only [ne_eq,same,not_false_eq_true,if_true,false_and,false_or,true_and]
    cases result : setGrub2 w g r name with
    | mk answer g' =>
      rw [result] at kept accepted
      dsimp only at kept accepted
      cases answer with
      | error e =>
        have outside : name ∉ offered w := fun inside => nomatch (accepted _).mpr ⟨inside,rfl⟩
        simp [outside]
      | ok r' =>
        obtain ⟨inside,rfl⟩ := (accepted r').mp rfl
        simp [inside,kept,known,eq_comm]

variable {b : BootManager}

theorem step_located (kind : b = .Grub2 ∨ b = .Burg) {s : World × Globals}
    (located : s.2.grubReboot.isSome) (event : Event) : (step b s event).2.grubReboot.isSome := by
  obtain ⟨w,g⟩ := s
  cases event with
  | list =>
    rcases kind with rfl | rfl
    · simp [step,getBootOptions,getGrub2_located located,show g.grubReboot.isSome from located]
    · simp [step,getBootOptions,getBurg,getGrub2OrBurg_located located,show g.grubReboot.isSome from located]
  | choose sdr opt =>
    cases opt with
    | none => exact located
    | some opt =>
      have kept := (setGrub2_located located w { sdr with osname := none } opt).1
      rcases kind with rfl | rfl
      · simpa [step,setBootOption,setOption,kept] using located
      · simpa [step,setBootOption,setOption,kept] using located
  | rewrite w => exact located

theorem run_located (kind : b = .Grub2 ∨ b = .Burg) {s : World × Globals}
    (located : s.2.grubReboot.isSome) (events : List Event) : (run b s events).2.grubReboot.isSome := by
  induction events generalizing s with
  | nil => exact located
  | cons event rest ih => exact ih (step_located kind located event)

/-- The choice is that of the `k`-th entry: by its number, by its name or by its label. -/
def Selects (b : BootManager) (w : World) (l : Listing) (k : Nat) (sdr : SdRec) : Prop :=
  match b with
  | .None => False
  | .Grub => sdr.osindex = k
  | .Grub2 | .Burg => ∃ entry, (menu b w)[k]? = some entry ∧ sdr.osname = some entry.name
  | .Lilo => sdr.osname = l.opts[k]?

/-- The helper is called for the chosen entry; a number is one of the menu as it is now. -/
def Boots (now : Listing) (opt : Bytes) (sdr : SdRec) : Command → Prop
  | .setDefault _ k | .savedefault _ k => now.opts[k]? = some opt
  | .reboot _ name | .lilo _ name => sdr.osname = some name

/-- The `k`-th option is accepted, the choice is that of the entry it was listed for, and if it is still
    in the menu at the commit, the entry is booted. -/
def Consistent (b : BootManager) (w : World) (l : Listing) (k : Nat) (opt : Bytes) (chosen : Except BO SdRec)
    (w' : World) (g' : Globals) : Prop :=
  ∃ r, chosen = .ok r ∧ Selects b w l k r ∧
    ∀ now, (getBootOptions b w' g').1 = .ok now → opt ∈ now.opts →
      ∃ command, commitBootOption b w' g' r = some command ∧ Boots now opt r command

/-- The titles of the entry are told apart by the separators only, and the menu is as old as it was at
    the choice, or has an entry that is listed under the name which was remembered. -/
def Named (b : BootManager) (w : World) (k : Nat) (opt : Bytes) (w' : World) (g' : Globals) : Prop :=
  ∃ entry, (menu b w)[k]? = some entry ∧ entry.Separated ∧
    ∀ now, (getBootOptions b w' g').1 = .ok now → opt ∈ now.opts →
      w.mTime (grub2File w) = configTime w' g' ∨ (entry.name ∈ offered w' ∧ ¬SEP <:+: entry.name)

/-- The condition on the menus: for the legacy Grub, that the lines with the title are neither indented nor have
    blanks behind them, and no line before says the same; for Burg, that the menu of Grub 2 has the option as well. -/
def Agrees (b : BootManager) (w : World) (k : Nat) (opt : Bytes) (w' : World) (g' : Globals) : Prop :=
  match b with
  | .None => True
  | .Grub => First (titles w) opt k ∧
    ∀ now, (getBootOptions b w' g').1 = .ok now → opt ∈ now.opts →
      if w'.mTime GRUB_MENU = w.mTime GRUB_MENU then now.opts[k]? = some opt
      else ∃ j, First (titles w') opt j ∧ now.opts[j]? = some opt
  | .Grub2 => Named b w k opt w' g'
  | .Burg => opt ∈ offered w ∧ Named b w k opt w' g'
  | .Lilo => opt ≠ []

theorem First.unique {names : List Bytes} {opt : Bytes} {i j : Nat} (first : First names opt i)
    (first' : First names opt j) : i = j := by
  have least {i j : Nat} (first : First names opt i) (first' : First names opt j) : ¬i < j := by
    intro earlier
    exact first'.2 (mem_of_getElem? (by rw [getElem?_take_of_lt earlier,first.1]))
  exact Nat.le_antisymm (Nat.le_of_not_lt (least first' first)) (Nat.le_of_not_lt (least first first'))

theorem commitGrub_iff (w' : World) (g' : Globals) (now : Listing) (stamp : Int) (k : Nat) (opt : Bytes) :
    (∃ command, commitGrub w' g' ⟨some opt,stamp,k⟩ opt = some command ∧
        Boots now opt ⟨some opt,stamp,k⟩ command) ↔
      if w'.mTime GRUB_MENU = stamp then now.opts[k]? = some opt
      else ∃ j, First (titles w') opt j ∧ now.opts[j]? = some opt := by
  unfold commitGrub
  by_cases same : w'.mTime GRUB_MENU = stamp
  · cases g'.grubSetDefault <;> simp [same,Boots]
  · simp only [ne_eq,Ne.symm same,not_false_eq_true,if_true,same,if_false]
    have accepted := setGrub_iff w' opt
    cases result : setGrub w' opt with
    | error e =>
      have missing (j : Nat) : ¬First (titles w') opt j :=
        fun first => nomatch result.symm.trans ((accepted _).mpr ⟨j,rfl,first⟩)
      simp [Except.toOption,missing]
    | ok r =>
      obtain ⟨j,rfl,first⟩ := (accepted r).mp result
      have number : (∃ j, First (titles w') opt j ∧ now.opts[j]? = some opt) ↔ now.opts[j]? = some opt :=
        ⟨fun ⟨_,first',there⟩ => first'.unique first ▸ there,fun there => ⟨j,first,there⟩⟩
      rw [number]
      cases g'.grubSetDefault <;> simp [Except.toOption,Boots]

theorem grub_consistent_iff {k : Nat} {opt : Bytes} (sdr : SdRec) (w' : World) (g' : Globals) :
    Consistent .Grub w l k opt (setBootOption .Grub w g sdr (some opt)).1 w' g' ↔ Agrees .Grub w k opt w' g' := by
  have committed (now : Listing) := commitGrub_iff w' g' now (w.mTime GRUB_MENU) k opt
  constructor
  · rintro ⟨r,accepted,rfl,commits⟩
    obtain ⟨k,rfl,first⟩ := (setGrub_iff w opt r).mp accepted
    exact ⟨first,fun now listed there => (committed now).mp (commits now listed there)⟩
  · rintro ⟨first,agrees⟩
    exact ⟨⟨some opt,w.mTime GRUB_MENU,k⟩,(setGrub_iff w opt _).mpr ⟨k,rfl,first⟩,rfl,
      fun now listed there => (committed now).mpr (agrees now listed there)⟩

theorem commitGrub2_iff {g' : Globals} (located : g'.grubReboot.isSome) (w' : World) (now : Listing) (opt : Bytes)
    {r : SdRec} {name : Bytes} (chosen : r.osname = some name) :
    (∃ command, commitGrub2 w' g' r name = some command ∧ Boots now opt r command) ↔
      r.bmstamp = configTime w' g' ∨ (name ∈ offered w' ∧ ¬SEP <:+: name) := by
  have kept : replaceInString name SEP (text ">") = name ↔ ¬SEP <:+: name := by
    rw [SEP_eq,name_eq]
    exact replaceInString_same (by decide) _ _ _
  have result := commitGrub2_located located w' r chosen
  obtain ⟨program,known⟩ := isSome_iff_exists.mp located
  constructor
  · rintro ⟨command,called,boots⟩
    rcases (result command).mp called with ⟨same,-⟩ | ⟨-,inside,program,rfl,-⟩
    · exact .inl same
    · exact .inr ⟨inside,kept.mp (some.inj (boots.symm.trans chosen))⟩
  · intro agrees
    by_cases same : r.bmstamp = configTime w' g'
    · exact ⟨_,(result _).mpr (.inl ⟨same,program,rfl,known⟩),chosen⟩
    · obtain ⟨inside,single⟩ := agrees.resolve_left same
      exact ⟨_,(result _).mpr (.inr ⟨same,inside,program,rfl,known⟩),chosen.trans (congrArg some (kept.mpr single).symm)⟩

theorem named_consistent_iff (kind : b = .Grub2 ∨ b = .Burg)
    (located : g.grubReboot.isSome) (same : l.opts = (menu b w).map (Entry.join SEP)) {k : Nat}
    {opt : Bytes} (entry : l.opts[k]? = some opt) (sdr : SdRec) {w' : World} {g' : Globals}
    (located' : g'.grubReboot.isSome) :
    Consistent b w l k opt (setBootOption b w g sdr (some opt)).1 w' g' ↔ opt ∈ offered w ∧ Named b w k opt w' g' := by
  obtain ⟨e,there,rfl⟩ : ∃ e, (menu b w)[k]? = some e ∧ e.join SEP = opt := by
    rw [same,getElem?_map] at entry
    exact map_eq_some_iff.mp entry
  have accepted := (setGrub2_located located w { sdr with osname := none } (e.join SEP)).2
  have sets : setBootOption b w g sdr (some (e.join SEP)) = setGrub2 w g { sdr with osname := none } (e.join SEP) := by
    rcases kind with rfl | rfl <;> rfl
  have selects (r : SdRec) : Selects b w l k r ↔ r.osname = some e.name := by
    rcases kind with rfl | rfl
    · simp [Selects,there]
    · simp [Selects,there]
  have commits (r : SdRec) (name : r.osname = some e.name) :
      commitBootOption b w' g' r = commitGrub2 w' g' r e.name := by
    rcases kind with rfl | rfl
    · simp [commitBootOption,name]
    · simp [commitBootOption,name]
  rw [sets]
  constructor
  · rintro ⟨r,chosen,selected,booted⟩
    obtain ⟨offer,rfl⟩ := (accepted r).mp chosen
    have name := (selects _).mp selected
    refine ⟨offer,e,there,e.replace_iff.mp (some.inj name),fun now listed inside => ?_⟩
    have result := booted now listed inside
    rw [commits _ name] at result
    exact (commitGrub2_iff located' w' now _ name).mp result
  · rintro ⟨offer,e',there',separated,agrees⟩
    obtain rfl : e' = e := some.inj (there'.symm.trans there)
    have name : replaceInString (e'.join SEP) SEP (text ">") = e'.name := e'.replace_iff.mpr separated
    refine ⟨_,(accepted _).mpr ⟨offer,rfl⟩,(selects _).mpr (congrArg some name),fun now listed inside => ?_⟩
    rw [commits _ (congrArg some name)]
    exact (commitGrub2_iff located' w' now _ (congrArg some name)).mpr (agrees now listed inside)

theorem getLilo_again {g₀ g : Globals} (listed : getLilo w g₀ = (.ok l,g)) : getLilo w g = (.ok l,g) := by
  unfold getLilo at listed
  dsimp only at listed
  generalize (if g₀.lilo.isSome then _ else _ : Globals) = g₁ at listed
  have same : g₁ = g := by
    split at listed
    · cases listed
    · split at listed
      · cases listed
      · split at listed
        · cases listed
        · split at listed
          · cases listed
          · exact (Prod.mk.inj listed).2
  subst same
  unfold getLilo
  cases known : g₁.lilo with
  | none => simp [known] at listed
  | some program => simpa [known] using listed

theorem lilo_consistent_iff {g₀ g : Globals} (listed : getLilo w g₀ = (.ok l,g)) {k : Nat}
    {opt : Bytes} (entry : l.opts[k]? = some opt) (sdr : SdRec) (w' : World) (g' : Globals) :
    Consistent .Lilo w l k opt (setBootOption .Lilo w g sdr (some opt)).1 w' g' ↔ opt ≠ [] := by
  have again := getLilo_again listed
  have inside : opt ∈ l.opts := mem_of_getElem? entry
  constructor
  · rintro ⟨r,accepted,selected,-⟩ rfl
    simp [setBootOption,setOption,setLilo,again] at accepted
    rw [← accepted] at selected
    simp [Selects,entry] at selected
  · intro some
    refine ⟨{ sdr with osname := .some opt },?_,?_,fun now listed there => ?_⟩
    · simp [setBootOption,setOption,setLilo,again,some,inside]
    · simp [Selects,entry]
    · exact ⟨_,rfl,rfl⟩

theorem chosen_located (kind : b = .Grub2 ∨ b = .Burg)
    (located : g.grubReboot.isSome) (sdr : SdRec) (opt : Bytes) {events : List Event} {w' : World} {g' : Globals}
    (later : run b (w,(setBootOption b w g sdr (some opt)).2) events = (w',g')) : g'.grubReboot.isSome := by
  have kept := run_located kind (s := (w,(setBootOption b w g sdr (some opt)).2))
    (step_located kind (s := (w,g)) located (.choose sdr (some opt))) events
  rwa [later] at kept

/-- What is listed is accepted and booted exactly if the menus agree. -/
theorem consistent_iff {b : BootManager} {w : World} {g₀ g : Globals} {l : Listing}
    (listed : getBootOptions b w g₀ = (.ok l,g)) {k : Nat} {opt : Bytes} (entry : l.opts[k]? = some opt)
    (sdr : SdRec) {events : List Event} {w' : World} {g' : Globals}
    (later : run b (w,(setBootOption b w g sdr (some opt)).2) events = (w',g')) :
    Consistent b w l k opt (setBootOption b w g sdr (some opt)).1 w' g' ↔ Agrees b w k opt w' g' := by
  cases b with
  | None => cases listed
  | Grub => exact grub_consistent_iff sdr w' g'
  | Grub2 =>
    obtain ⟨exec,file⟩ := getGrub2_eq w g₀
    obtain ⟨located,same⟩ := getGrub2OrBurg_ok (file.symm.trans listed)
    have offer : opt ∈ offered w := by
      have inside : opt ∈ l.opts := mem_of_getElem? entry
      rw [same] at inside
      exact inside
    rw [named_consistent_iff (.inl rfl) located same entry sdr (chosen_located (.inl rfl) located sdr opt later)]
    exact and_iff_right offer
  | Burg =>
    obtain ⟨located,same⟩ := getGrub2OrBurg_ok listed
    exact named_consistent_iff (.inr rfl) located same entry sdr (chosen_located (.inr rfl) located sdr opt later)
  | Lilo => exact lilo_consistent_iff listed entry sdr w' g'

def menuWorld (name : String) (mtime : Int) (content : String) : World :=
  ⟨some,fun other => if other = name then .readable mtime (text content) else .absent,none⟩

def started : Globals := ⟨none,none,none,none,none⟩

def noOption : SdRec := ⟨none,0,0⟩

def grub2Menu (mtime : Int) : World := menuWorld "/boot/grub2/grub.cfg" mtime
  "set default=\"${saved_entry}\"\nmenuentry 'Linux' \x7b\n\x7d\nsubmenu 'More' \x7b\nmenuentry 'Old' \x7b\n\x7d\n\x7d\n"

theorem run_rewrite (b : BootManager) (w w' : World) (g : Globals) : run b (w,g) [.rewrite w'] = (w',g) := rfl

theorem grub2Menu_entries : ∃ content, (∀ mtime, (grub2Menu mtime).fopen "/boot/grub2/grub.cfg" = .ok content) ∧
    menuOpts Entry.extend content =
      .ok [.top (text "Linux"),.top (text "More"),.inside (.top (text "More")) (text "Old")] :=
  ⟨_,fun _ => rfl,by decide +kernel⟩

theorem grub2Menu_found (mtime : Int) : (grub2Menu mtime).file "/boot/grub2/grub.cfg" ≠ .absent := nofun

theorem menu_grub2Menu (mtime : Int) :
    menu .Grub2 (grub2Menu mtime) = [.top (text "Linux"),.top (text "More"),.inside (.top (text "More")) (text "Old")] := by
  obtain ⟨content,opened,entries⟩ := grub2Menu_entries
  simp only [menu,menuFile,grub2File,if_pos (grub2Menu_found mtime),opened]
  rw [Except.bind,entries]
  rfl

theorem grub2Menu_lists (program : g.grubReboot = none ∨ g.grubReboot = some "grub2-reboot") :
    getGrub2 (grub2Menu 1) g = (.ok ⟨[text "Linux",text "More",text "More >> Old"],-1,-1⟩,
      { g with grubReboot := some "grub2-reboot", grubConfig := some "/boot/grub2/grub.cfg" }) := by
  obtain ⟨content,opened,entries⟩ := grub2Menu_entries
  have listing : menuOpts strApp content = .ok [text "Linux",text "More",text "More >> Old"] := by
    rw [menuOpts_join,entries]
    rfl
  have located : (grub2Menu 1).locate "grub2-reboot" = some "grub2-reboot" := rfl
  rw [getGrub2,if_pos (grub2Menu_found 1),getGrub2OrBurg,opened]
  rcases program with missing | known
  · simp [missing,located,Except.bind,Except.map,listing]
  · simp [known,Except.bind,Except.map,listing]

theorem consistent_iff_rewritten :
    Consistent .Grub2 (grub2Menu 1) ⟨[text "Linux",text "More",text "More >> Old"],-1,-1⟩ 0 (text "Linux")
      (setBootOption .Grub2 (grub2Menu 1) ⟨none,none,some "grub2-reboot",some "/boot/grub2/grub.cfg",none⟩ noOption
        (some (text "Linux"))).1
      (grub2Menu 2) ⟨none,none,some "grub2-reboot",some "/boot/grub2/grub.cfg",none⟩ := by
  have listed : getBootOptions .Grub2 (grub2Menu 1) started =
      (.ok ⟨[text "Linux",text "More",text "More >> Old"],-1,-1⟩,
        ⟨none,none,some "grub2-reboot",some "/boot/grub2/grub.cfg",none⟩) :=
    grub2Menu_lists (.inl rfl)
  have later : run .Grub2 (grub2Menu 1,(setBootOption .Grub2 (grub2Menu 1)
        ⟨none,none,some "grub2-reboot",some "/boot/grub2/grub.cfg",none⟩ noOption (some (text "Linux"))).2)
      [.rewrite (grub2Menu 2)] =
      (grub2Menu 2,⟨none,none,some "grub2-reboot",some "/boot/grub2/grub.cfg",none⟩) := by
    rw [run_rewrite]
    have again := grub2Menu_lists (g := ⟨none,none,some "grub2-reboot",some "/boot/grub2/grub.cfg",none⟩) (.inr rfl)
    simp only [setBootOption,setOption,setGrub2,again]
    split <;> rfl
  apply (consistent_iff listed rfl noOption later).mpr
  refine ⟨.top (text "Linux"),by rw [menu_grub2Menu]; rfl,?_,fun _ _ _ => .inr ⟨?_,?_⟩⟩
  · unfold Entry.Separated
    decide
  · rw [offered,menu_grub2Menu]
    exact mem_cons_self
  · decide

/-- A title that is indented is listed and refused. -/
theorem indented_refused :
    getBootOptions .Grub (menuWorld GRUB_MENU 1 "default 0\n  title Linux\n") started =
        (.ok ⟨[text "Linux"],0,-1⟩,⟨some "grub-set-default",none,none,none,none⟩) ∧
      ¬Consistent .Grub (menuWorld GRUB_MENU 1 "default 0\n  title Linux\n") ⟨[text "Linux"],0,-1⟩ 0 (text "Linux")
        (setBootOption .Grub (menuWorld GRUB_MENU 1 "default 0\n  title Linux\n")
          ⟨some "grub-set-default",none,none,none,none⟩ noOption (some (text "Linux"))).1
        (menuWorld GRUB_MENU 1 "default 0\n  title Linux\n") ⟨some "grub-set-default",none,none,none,none⟩ := by
  have located : locateGrub (menuWorld GRUB_MENU 1 "default 0\n  title Linux\n") started =
      ⟨some "grub-set-default",none,none,none,none⟩ := by
    decide +kernel
  have content : (menuWorld GRUB_MENU 1 "default 0\n  title Linux\n").fopen GRUB_MENU = .ok (text "default 0\n  title Linux\n") :=
    rfl
  have listing : (lines 1000 (text "default 0\n  title Linux\n")).foldl grubLine ⟨[],0,-1⟩ = ⟨[text "Linux"],0,-1⟩ := by
    decide +kernel
  constructor
  · simp only [getBootOptions,getGrub,located,content]
    rw [← listing]
    rfl
  rintro ⟨r,accepted,-⟩
  have refused : setGrub (menuWorld GRUB_MENU 1 "default 0\n  title Linux\n") (text "Linux") = .error .noent := by
    decide +kernel
  cases refused.symm.trans accepted

end KdeWorkspace.BootOptions
