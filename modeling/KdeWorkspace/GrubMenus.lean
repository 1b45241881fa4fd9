import KdeWorkspace.BootOptions

/-!
The menu of Grub 2 or Burg as it is printed, and the entries that are listed from it.

A menu is a tree of submenus and entries, printed with one statement on each line. The lines are read one by one,
and the level is kept by the braces at their ends. The length that a `set` statement leaves behind is the wrong one,
so a body may be taken to end too early, and the loop that cuts off the blanks at the end of a line runs out of the
line where there is nothing else. `lists_right_iff` says when neither matters.
-/
namespace KdeWorkspace.BootOptions
open List
open PipeCodec (Bytes stringAt)
open SessionList (byte text newline isSpace)
open Option (bind_some some_or)

namespace GrubMenus

def Blank (bytes : Bytes) : Prop := ∀ c ∈ bytes, isSpace c = true

/-- What may stand on a line. -/
def Printable (bytes : Bytes) : Prop := ∀ c ∈ bytes, c ≠ 0 ∧ c ≠ newline

/-- A dollar sign, a quote or a backslash. -/
def Special (c : UInt8) : Prop := c = byte '$' ∨ c = byte '"' ∨ c = byte '\\'

/-- What stands between double quotes, and what it means. -/
inductive DoubleQuoted : Bytes → Bytes → Prop
  | nil : DoubleQuoted [] []
  | plain {c : UInt8} {printed title : Bytes} (quote : c ≠ byte '"') (backslash : c ≠ byte '\\')
    (rest : DoubleQuoted printed title) : DoubleQuoted (c :: printed) (c :: title)
  | escaped {c : UInt8} {printed title : Bytes} (special : Special c) (rest : DoubleQuoted printed title) :
      DoubleQuoted (byte '\\' :: c :: printed) (c :: title)
  | kept {c : UInt8} {printed title : Bytes} (ordinary : ¬ Special c) (rest : DoubleQuoted printed title) :
      DoubleQuoted (byte '\\' :: c :: printed) (byte '\\' :: c :: title)

inductive Quoted : Bytes → Bytes → Prop
  | single {title : Bytes} (clean : byte '\'' ∉ title) : Quoted (byte '\'' :: (title ++ [byte '\''])) title
  | double {printed title : Bytes} (means : DoubleQuoted printed title) :
      Quoted (byte '"' :: (printed ++ [byte '"'])) title

/-- The line that begins an entry or a submenu. Whatever is behind the title does not count. -/
structure Head where
  indent : Bytes
  gap : Bytes
  quoted : Bytes
  title : Bytes
  tail : Bytes
  indentBlank : Blank indent
  gapBlank : Blank gap
  gapSome : gap ≠ []
  quotes : Quoted quoted title
  printable : Printable (indent ++ gap ++ quoted ++ tail)

/-- The line with the brace at the end. -/
structure Close where
  indent : Bytes
  trail : Bytes
  indentBlank : Blank indent
  trailBlank : Blank trail
  printable : Printable (indent ++ trail)

structure BodyLine where
  line : Bytes
  printable : Printable line
  noBrace : line.getLast? ≠ some (byte '\x7d')
  noEntry : matchKey (line.dropWhile isSpace) (text "menuentry") = none
  noSubmenu : matchKey (line.dropWhile isSpace) (text "submenu") = none

/-- A submenu, an entry, or a line without either: a blank one, or a statement that opens and closes nothing. -/
inductive Item
  | plain (line : Bytes) (printable : Printable line) (idle : menuLine line = .other ∨ menuLine line = .savedEntry)
  | entry (head : Head) (body : List BodyLine) (close : Close)
  | submenu (head : Head) (items : List Item) (close : Close)

def Head.line (head : Head) (key : Bytes) : Bytes := head.indent ++ key ++ head.gap ++ head.quoted ++ head.tail

def Close.line (close : Close) : Bytes := close.indent ++ byte '\x7d' :: close.trail

mutual
def Item.lines : Item → List Bytes
  | .plain line _ _ => [line]
  | .entry head body close => head.line (text "menuentry") :: (body.map BodyLine.line ++ [close.line])
  | .submenu head items close => head.line (text "submenu") :: (linesOf items ++ [close.line])

def linesOf : List Item → List Bytes
  | [] => []
  | item :: items => item.lines ++ linesOf items
end

/-- The text of a menu. -/
def print (items : List Item) : Bytes := (linesOf items).flatMap (· ++ [newline])

mutual
/-- How deep submenus are nested. -/
def Item.depth : Item → Nat
  | .plain .. => 0
  | .entry .. => 0
  | .submenu _ items _ => depthOf items+1

def depthOf : List Item → Nat
  | [] => 0
  | item :: items => max item.depth (depthOf items)
end

mutual
/-- The submenus and the entries in their order, each with the titles of the menus that it is in. -/
def Item.paths (menu : Option Bytes) : Item → List Bytes
  | .plain .. => []
  | .entry head _ _ => [strApp menu head.title]
  | .submenu head items _ => strApp menu head.title :: pathsOf (some (strApp menu head.title)) items

def pathsOf (menu : Option Bytes) : List Item → List Bytes
  | [] => []
  | item :: items => item.paths menu ++ pathsOf menu items
end

/-- The loop that goes back over the blanks at the end of a line: the place of the last byte that is none, unless the
loop goes on in front of the line. -/
def trimmed (buf : Bytes) : Nat → Option Nat
  | 0 => none
  | n+1 => if buf[n]?.any isSpace then trimmed buf n else some n

/-- The place where the brace is looked for. -/
def bracePlace (line : Bytes) : Option Int :=
  let linp := line.dropWhile isSpace
  let back : Nat := match matchKey linp (text "set") with
    | some ptr => linp.length-ptr.length
    | none => 0
  (trimmed line line.length).map fun last : Nat => (last : Int)-(back : Int)

def InsideLine (line : Bytes) : Prop := ∃ place, bracePlace line = some place ∧ 0 ≤ place ∧ place < line.length

/-- The stack of the menus is used within its bounds, and what it holds is the place of an entry. -/
def InsideStack (scan : Scan Bytes) (line : Bytes) : Prop :=
  match menuLine line with
  | .menuentry _ => scan.menuLvl ≤ GRUB2_MAX_MENU_LEVEL → 0 < scan.menuLvl →
      ∃ menu, scan.menus[scan.menuLvl-1]? = some menu ∧ menu < scan.opts.length
  | .submenu _ => scan.menuLvl < GRUB2_MAX_MENU_LEVEL → scan.menuLvl < scan.menus.length ∧ (0 < scan.menuLvl →
      ∃ menu, scan.menus[scan.menuLvl-1]? = some menu ∧ menu < scan.opts.length)
  | _ => True

/-- The menu is listed as it is, and nothing is read outside. -/
structure ListsRight (items : List Item) : Prop where
  listed : (scanLines strApp Scan.start (lines 1000 (print items))).map Scan.opts = some (pathsOf none items)
  insideLine : ∀ line ∈ lines 1000 (print items), InsideLine line
  insideStack : ∀ front line behind, lines 1000 (print items) = front ++ line :: behind →
    ∀ scan, scanLines strApp Scan.start front = some scan → InsideStack scan line

/-- The lines of a body that are taken for its end. -/
def lostIn (body : List BodyLine) : Nat := body.countP fun it => menuLine it.line = .close

mutual
/-- How many levels are lost. -/
def Item.lost : Item → Nat
  | .plain .. => 0
  | .entry _ body _ => lostIn body
  | .submenu _ items _ => lostOf items

def lostOf : List Item → Nat
  | [] => 0
  | item :: items => item.lost+lostOf items
end

def Item.isPlain : Item → Prop
  | .plain .. => True
  | _ => False

mutual
/-- Nothing follows in the submenus of an entry whose end is found too early. -/
def Item.Sound : Item → Prop
  | .plain .. => True
  | .entry .. => True
  | .submenu _ items _ => SoundIn items

def SoundIn : List Item → Prop
  | [] => True
  | item :: items => item.Sound ∧ (item.lost ≠ 0 → ∀ other ∈ items, other.isPlain) ∧ SoundIn items
end

theorem fgets_line {rest : Bytes} : ∀ {line part : Bytes}, (∀ c ∈ line, c ≠ newline) → part.length+line.length ≤ 998 →
    fgets 1000 part (line ++ newline :: rest) = (part ++ line ++ [newline]) :: fgets 1000 [] rest := by
  intro line
  induction line with
  | nil =>
    intro part _ _
    rw [nil_append,fgets,if_pos (.inl rfl),append_nil]
  | cons c line ih =>
    intro part clean fits
    have other : c ≠ newline := clean c (mem_cons_self ..)
    rw [length_cons] at fits
    have more : ¬ (c = newline ∨ (part ++ [c]).length = 1000-1) := by
      rw [length_append,length_singleton]
      rintro (same | full)
      · exact other same
      · omega
    rw [cons_append,fgets,if_neg more,ih (fun d member => clean d (mem_cons_of_mem _ member))
      (by rw [length_append,length_singleton]; omega)]
    simp

theorem fGets_line {line : Bytes} (printable : Printable line) : fGets (line ++ [newline]) = line := by
  have whole : stringAt (line ++ [newline]) = line ++ [newline] := by
    refine takeWhile_eq_self_iff.mpr fun c member => ?_
    rcases mem_append.mp member with inside | last
    · simpa using (printable c inside).1
    · rw [mem_singleton.mp last]
      decide
  rw [fGets,whole]
  simp

theorem lines_print (printed : List Bytes) (printable : ∀ line ∈ printed, Printable line)
    (fits : ∀ line ∈ printed, line.length ≤ 998) : lines 1000 (printed.flatMap (· ++ [newline])) = printed := by
  induction printed with
  | nil => rfl
  | cons line printed ih =>
    have here := printable line (mem_cons_self ..)
    have short := fits line (mem_cons_self ..)
    have rest := ih (fun other member => printable other (mem_cons_of_mem _ member))
      (fun other member => fits other (mem_cons_of_mem _ member))
    rw [lines] at rest ⊢
    rw [flatMap_cons,append_assoc,singleton_append,
      fgets_line (fun c member => (here c member).2) (by simpa using short),map_cons,rest,nil_append,
      fGets_line here]

theorem text_printable {key : String} (clean : Printable (text key)) {indent gap rest : Bytes}
    (printable : Printable (indent ++ gap ++ rest)) : Printable (indent ++ text key ++ gap ++ rest) := by
  intro c member
  simp only [mem_append] at member
  rcases member with ((inside | inside) | inside) | inside
  · exact printable c (by simp [inside])
  · exact clean c inside
  · exact printable c (by simp [inside])
  · exact printable c (by simp [inside])

theorem Head.line_printable (head : Head) {key : String} (clean : Printable (text key)) :
    Printable (head.line (text key)) := by
  have printable := head.printable
  rw [append_assoc] at printable
  have all := text_printable clean printable
  rwa [← append_assoc] at all

theorem Close.line_printable (close : Close) : Printable close.line := by
  intro c member
  rw [Close.line,mem_append,mem_cons] at member
  rcases member with inside | rfl | inside
  · exact close.printable c (mem_append_left _ inside)
  · decide
  · exact close.printable c (mem_append_right _ inside)

theorem key_printable : Printable (text "menuentry") ∧ Printable (text "submenu") := by
  unfold Printable
  decide +kernel

mutual
theorem Item.lines_printable : ∀ (item : Item), ∀ line ∈ item.lines, Printable line
  | .plain line printable _ => by
    intro other member
    rw [Item.lines,mem_singleton] at member
    exact member ▸ printable
  | .entry head body close => by
    intro line member
    rw [Item.lines,mem_cons,mem_append,mem_singleton] at member
    rcases member with rfl | inside | rfl
    · exact head.line_printable key_printable.1
    · obtain ⟨it,_,rfl⟩ := mem_map.mp inside
      exact it.printable
    · exact close.line_printable
  | .submenu head items close => by
    intro line member
    rw [Item.lines,mem_cons,mem_append,mem_singleton] at member
    rcases member with rfl | inside | rfl
    · exact head.line_printable key_printable.2
    · exact linesOf_printable items line inside
    · exact close.line_printable

theorem linesOf_printable : ∀ (items : List Item), ∀ line ∈ linesOf items, Printable line
  | [] => by
    intro line member
    cases member
  | item :: items => by
    intro line member
    rw [linesOf,mem_append] at member
    rcases member with inside | inside
    · exact item.lines_printable line inside
    · exact linesOf_printable items line inside
end

theorem blank_dropWhile {blank rest : Bytes} (is_blank : Blank blank) :
    (blank ++ rest).dropWhile isSpace = rest.dropWhile isSpace := by
  induction blank with
  | nil => rfl
  | cons c blank ih =>
    rw [cons_append,dropWhile_cons_of_pos (is_blank c (mem_cons_self ..))]
    exact ih fun d member => is_blank d (mem_cons_of_mem _ member)

theorem quoted_cons {quoted title : Bytes} (quotes : Quoted quoted title) :
    ∃ c rest, quoted = c :: rest ∧ isSpace c = false := by
  cases quotes with
  | single => exact ⟨_,_,rfl,by decide⟩
  | double => exact ⟨_,_,rfl,by decide⟩

theorem matchKey_head (head : Head) (key : Bytes) :
    matchKey (key ++ head.gap ++ head.quoted ++ head.tail) key = some (head.quoted ++ head.tail) := by
  obtain ⟨c,gap,is_gap⟩ := exists_cons_of_ne_nil head.gapSome
  obtain ⟨d,rest,is_quoted,ordinary⟩ := quoted_cons head.quotes
  have blank := head.gapBlank
  rw [is_gap] at blank
  have left : Blank gap := fun e member => blank e (mem_cons_of_mem _ member)
  have fits : key <+: key ++ head.gap ++ head.quoted ++ head.tail ∧
      ((key ++ head.gap ++ head.quoted ++ head.tail)[key.length]?).any isSpace := by
    constructor
    · rw [append_assoc,append_assoc]
      exact prefix_append ..
    · rw [append_assoc,append_assoc,getElem?_append_right (Nat.le_refl _),Nat.sub_self,is_gap]
      exact blank c (mem_cons_self ..)
  have drop : (key ++ head.gap ++ head.quoted ++ head.tail).drop (key.length+1) = gap ++ (head.quoted ++ head.tail) := by
    rw [append_assoc,append_assoc,← drop_drop,drop_left,is_gap]
    rfl
  have behind : (gap ++ (head.quoted ++ head.tail)).dropWhile isSpace = head.quoted ++ head.tail := by
    rw [blank_dropWhile left,is_quoted,cons_append,dropWhile_cons_of_neg (by rw [ordinary]; decide)]
  rw [matchKey,if_pos fits,drop,behind,is_quoted]
  rfl

theorem matchKey_other {buf key : Bytes} (other : ¬ key <+: buf) : matchKey buf key = none := by
  rw [matchKey,if_neg]
  exact fun both => other both.1

theorem Head.linp (head : Head) (c : UInt8) (key : Bytes) (ordinary : isSpace c = false) :
    (head.line (c :: key)).dropWhile isSpace = c :: key ++ head.gap ++ head.quoted ++ head.tail := by
  rw [Head.line,append_assoc,append_assoc,append_assoc,blank_dropWhile head.indentBlank,cons_append,
    dropWhile_cons_of_neg (by rw [ordinary]; decide)]
  simp

theorem menuLine_entry (head : Head) : menuLine (head.line (text "menuentry")) = .menuentry (head.quoted ++ head.tail) := by
  have linp := head.linp (byte 'm') (text "enuentry") (by decide)
  have set : matchKey (byte 'm' :: text "enuentry" ++ head.gap ++ head.quoted ++ head.tail) (text "set") = none := by
    refine matchKey_other fun first => ?_
    revert first
    simp [text,byte,cons_prefix_cons]
  rw [menuLine]
  change (head.line (text "menuentry")).dropWhile isSpace = text "menuentry" ++ _ ++ _ ++ _ at linp
  change matchKey (text "menuentry" ++ _ ++ _ ++ _) _ = _ at set
  simp only [linp,set,matchKey_head head (text "menuentry")]
  rfl

theorem menuLine_submenu (head : Head) : menuLine (head.line (text "submenu")) = .submenu (head.quoted ++ head.tail) := by
  have linp := head.linp (byte 's') (text "ubmenu") (by decide)
  have set : matchKey (byte 's' :: text "ubmenu" ++ head.gap ++ head.quoted ++ head.tail) (text "set") = none := by
    refine matchKey_other fun first => ?_
    revert first
    simp [text,byte,cons_prefix_cons]
  have entry : matchKey (byte 's' :: text "ubmenu" ++ head.gap ++ head.quoted ++ head.tail) (text "menuentry") = none := by
    refine matchKey_other fun first => ?_
    revert first
    simp [text,byte,cons_prefix_cons]
  rw [menuLine]
  change (head.line (text "submenu")).dropWhile isSpace = text "submenu" ++ _ ++ _ ++ _ at linp
  change matchKey (text "submenu" ++ _ ++ _ ++ _) _ = _ at set
  change matchKey (text "submenu" ++ _ ++ _ ++ _) _ = _ at entry
  simp only [linp,set,entry,matchKey_head head (text "submenu")]
  rfl

theorem menuLine_close (close : Close) : menuLine close.line = .close := by
  have linp : close.line.dropWhile isSpace = byte '}' :: close.trail := by
    rw [Close.line,blank_dropWhile close.indentBlank,dropWhile_cons_of_neg (by decide)]
  have other (key : String) (first : (text key).head? ≠ some (byte '}')) (some : text key ≠ []) :
      matchKey (byte '}' :: close.trail) (text key) = none := by
    refine matchKey_other fun is_prefix => ?_
    cases is : text key with
    | nil => exact some is
    | cons c rest =>
      rw [is] at is_prefix first
      rw [cons_prefix_cons] at is_prefix
      exact first (congrArg Option.some is_prefix.1)
  have trail : (byte '}' :: close.trail).rdropWhile isSpace = [byte '}'] := by
    rw [rdropWhile,reverse_cons]
    rw [blank_dropWhile (fun c member => close.trailBlank c (mem_reverse.mp member))]
    rfl
  rw [menuLine]
  simp only [linp,trail,other "set" (by decide) (by decide),other "menuentry" (by decide) (by decide),
    other "submenu" (by decide) (by decide)]
  rfl

theorem doubleQuoted_of {printed title : Bytes} (means : DoubleQuoted printed title) (tail : Bytes) :
    doubleQuoted (printed ++ byte '"' :: tail) = some title := by
  have apart : byte '\\' ≠ byte '"' := by decide
  induction means with
  | nil =>
    rw [nil_append,doubleQuoted.eq_def]
    simp
  | plain quote backslash _ ih =>
    rw [cons_append,doubleQuoted.eq_def]
    simp only [if_neg quote,if_neg backslash]
    rw [ih]
    rfl
  | escaped special _ ih =>
    unfold Special at special
    rw [cons_append,cons_append,doubleQuoted.eq_def]
    simp only [if_neg apart,if_true]
    rw [ih,if_pos special]
    rfl
  | kept ordinary _ ih =>
    unfold Special at ordinary
    rw [cons_append,cons_append,doubleQuoted.eq_def]
    simp only [if_neg apart,if_true]
    rw [ih,if_neg ordinary]
    rfl

theorem parseGrubTitle_quoted {quoted title : Bytes} (quotes : Quoted quoted title) (tail : Bytes) :
    parseGrubTitle (quoted ++ tail) = some title := by
  cases quotes with
  | single clean =>
    rw [cons_append,parseGrubTitle]
    have inside : byte '\'' ∈ title ++ [byte '\''] ++ tail := by simp
    have front : (title ++ [byte '\''] ++ tail).takeWhile (· ≠ byte '\'') = title := by
      have before : ∀ c ∈ title, decide (c ≠ byte '\'') = true := by
        intro c member
        rw [decide_eq_true_eq]
        rintro rfl
        exact clean member
      rw [append_assoc,takeWhile_append_of_pos before,singleton_append, takeWhile_cons_of_neg (by decide),append_nil]
    rw [if_pos rfl,if_pos inside,front]
  | double means =>
    rw [cons_append,parseGrubTitle,if_neg (by decide),if_pos rfl,append_assoc,singleton_append]
    exact doubleQuoted_of means tail

/-- Reading has come to a place in some submenus, which have these paths. -/
structure At (scan : Scan Bytes) (menus : List Bytes) : Prop where
  level : scan.menuLvl = menus.length
  out : scan.inEntry = false
  stack : scan.menus.length = GRUB2_MAX_MENU_LEVEL
  found : ∀ i, i < menus.length → ∃ place, scan.menus[i]? = some place ∧ scan.opts[place]? = menus[i]?
  longer : menus.Pairwise fun p q => p.length < q.length

/-- Reading has got behind some items. -/
structure Behind (scan scan' : Scan Bytes) (menus paths : List Bytes) (lost : Nat) : Prop where
  opts : scan'.opts = scan.opts ++ paths
  level : scan'.menuLvl = menus.length-lost
  out : scan'.inEntry = false
  stack : scan'.menus.length = GRUB2_MAX_MENU_LEVEL
  kept : ∀ i, i < menus.length → scan'.menus[i]? = scan.menus[i]?

variable {scan scan' scan'' fin : Scan Bytes} {menus paths paths' : List Bytes} {lost lost' : Nat}

theorem At.behind (here : At scan menus) (behind : Behind scan scan' menus paths 0) : At scan' menus := by
  refine ⟨behind.level,behind.out,behind.stack,fun i inside => ?_,here.longer⟩
  obtain ⟨place,is_place,found⟩ := here.found i inside
  refine ⟨place,(behind.kept i inside).trans is_place,?_⟩
  rw [behind.opts,← found]
  refine getElem?_append_left ?_
  rw [List.getElem?_eq_getElem inside] at found
  exact (List.getElem?_eq_some_iff.mp found).1

theorem Behind.refl (here : At scan menus) : Behind scan scan menus [] 0 :=
  ⟨(append_nil _).symm,here.level,here.out,here.stack,fun _ _ => rfl⟩

theorem Behind.trans (first : Behind scan scan' menus paths 0) (second : Behind scan' scan'' menus paths' lost) :
    Behind scan scan'' menus (paths ++ paths') lost := by
  refine ⟨?_,second.level,second.out,second.stack,fun i inside => (second.kept i inside).trans (first.kept i inside)⟩
  rw [second.opts,first.opts,append_assoc]

theorem At.menu (here : At scan menus) {level : Nat} (le : level ≤ menus.length) :
    (if 0 < level then scan.menus[level-1]?.bind (scan.opts[·]?) else none) = (menus.take level).getLast? := by
  cases level with
  | zero => simp
  | succ n =>
    obtain ⟨place,is_place,found⟩ := here.found n le
    rw [if_pos (Nat.succ_pos n),Nat.add_sub_cancel,is_place,bind_some,found,getLast?_take]
    simp [getElem?_eq_getElem le]

theorem scanLines_cons (scan : Scan Bytes) (line : Bytes) (rest : List Bytes) :
    scanLines strApp scan (line :: rest) = (scanLine strApp scan line).bind (scanLines strApp · rest) := rfl

theorem scanLines_append (scan : Scan Bytes) (front rest : List Bytes) :
    scanLines strApp scan (front ++ rest) = (scanLines strApp scan front).bind (scanLines strApp · rest) :=
  foldlM_append

theorem scanLine_idle (scan : Scan Bytes) {line : Bytes} (idle : menuLine line = .other ∨ menuLine line = .savedEntry) :
    ∃ scan', scanLine strApp scan line = some scan' ∧ scan'.opts = scan.opts ∧ scan'.menus = scan.menus ∧
      scan'.menuLvl = scan.menuLvl ∧ scan'.inEntry = scan.inEntry := by
  rcases idle with other | saved
  · exact ⟨scan,by rw [scanLine,other],rfl,rfl,rfl,rfl⟩
  · exact ⟨{ scan with saved := true },by rw [scanLine,saved],rfl,rfl,rfl,rfl⟩

theorem scanLine_entry (scan : Scan Bytes) (head : Head) (le : scan.menuLvl ≤ GRUB2_MAX_MENU_LEVEL) :
    scanLine strApp scan (head.line (text "menuentry")) = some { scan with
      opts := scan.opts ++ [strApp (if 0 < scan.menuLvl then scan.menus[scan.menuLvl-1]?.bind (scan.opts[·]?) else none)
        head.title]
      inEntry := true } := by
  rw [scanLine,menuLine_entry]
  simp only [if_pos le,buildBootList,parseGrubTitle_quoted head.quotes]
  rfl

theorem scanLine_submenu (scan : Scan Bytes) (head : Head) (less : scan.menuLvl < GRUB2_MAX_MENU_LEVEL) :
    scanLine strApp scan (head.line (text "submenu")) = some { scan with
      opts := scan.opts ++ [strApp (if 0 < scan.menuLvl then scan.menus[scan.menuLvl-1]?.bind (scan.opts[·]?) else none)
        head.title]
      menus := scan.menus.set scan.menuLvl scan.opts.length
      menuLvl := scan.menuLvl+1 } := by
  rw [scanLine,menuLine_submenu]
  simp only [if_pos less,buildBootList,parseGrubTitle_quoted head.quotes]
  rfl

theorem scanLine_close {line : Bytes} (close : menuLine line = .close) : scanLine strApp scan line =
    some (if scan.inEntry then { scan with inEntry := false } else { scan with menuLvl := scan.menuLvl-1 }) := by
  rw [scanLine,close]
  simp only
  split <;> rfl

theorem BodyLine.reads (it : BodyLine) : (menuLine it.line = .other ∨ menuLine it.line = .savedEntry) ∨
    menuLine it.line = .close := by
  have entry := it.noEntry
  have submenu := it.noSubmenu
  have either (brace : Prop) [Decidable brace] : ((if brace then MenuLine.close else .other) = .other ∨
      (if brace then MenuLine.close else .other) = .savedEntry) ∨
        (if brace then MenuLine.close else .other) = .close := by
    by_cases ends : brace
    · exact .inr (if_pos ends)
    · exact .inl (.inl (if_neg ends))
  rw [menuLine]
  simp only [entry,submenu]
  split
  · exact .inl (.inr rfl)
  · exact either _

theorem scan_body (body : List BodyLine) (close : Close) : ∀ scan : Scan Bytes, ∃ scan',
    scanLines strApp scan (body.map BodyLine.line ++ [close.line]) = some scan' ∧ scan'.opts = scan.opts ∧
      scan'.menus = scan.menus ∧ scan'.inEntry = false ∧
        scan'.menuLvl = if scan.inEntry then scan.menuLvl-lostIn body else scan.menuLvl-lostIn body-1 := by
  induction body with
  | nil =>
    intro scan
    refine ⟨_,by rw [map_nil,nil_append,scanLines_cons,scanLine_close (menuLine_close close)]; rfl,?_⟩
    cases scan.inEntry <;> simp [lostIn]
  | cons it body ih =>
    intro scan
    rcases it.reads with idle | ends
    · obtain ⟨next,read,opts,stack,level,inEntry⟩ := scanLine_idle scan idle
      obtain ⟨scan',rest,opts',stack',out,level'⟩ := ih next
      have none : lostIn (it :: body) = lostIn body := by
        rw [lostIn,lostIn,countP_cons_of_neg]
        rcases idle with other | saved
        · simp [other]
        · simp [saved]
      refine ⟨scan',?_,opts'.trans opts,stack'.trans stack,out,?_⟩
      · rw [map_cons,cons_append,scanLines_cons,read]
        exact rest
      · rw [level',inEntry,level,none]
    · obtain ⟨scan',rest,opts',stack',out,level'⟩ := ih
        (if scan.inEntry then { scan with inEntry := false } else { scan with menuLvl := scan.menuLvl-1 })
      have one : lostIn (it :: body) = lostIn body+1 := by
        rw [lostIn,lostIn,countP_cons_of_pos (by simp [ends])]
      refine ⟨scan',?_,?_,?_,out,?_⟩
      · rw [map_cons,cons_append,scanLines_cons,scanLine_close ends]
        exact rest
      · rw [opts']
        split <;> rfl
      · rw [stack']
        split <;> rfl
      · rw [level',one]
        cases scan.inEntry
        · simp
          omega
        · simp
          omega

theorem strApp_longer (menu title : Bytes) : menu.length < (strApp (some menu) title).length := by
  rw [strApp,length_append,length_append]
  have separator : SEP.length = 4 := by decide
  omega

theorem longer_snoc (longer : menus.Pairwise fun p q => p.length < q.length) (title : Bytes) :
    (menus ++ [strApp menus.getLast? title]).Pairwise fun p q => p.length < q.length := by
  rcases eq_nil_or_concat menus with rfl | ⟨outer,last,rfl⟩
  · exact pairwise_singleton ..
  · rw [concat_eq_append] at longer ⊢
    rw [getLast?_append,getLast?_singleton,some_or]
    refine pairwise_append.mpr ⟨longer,pairwise_singleton ..,fun p member q is_last => ?_⟩
    rw [mem_singleton.mp is_last]
    rcases mem_append.mp member with inside | same
    · exact ((pairwise_append.mp longer).2.2 p inside last (mem_singleton.mpr rfl)).trans
        (strApp_longer last title)
    · rw [mem_singleton.mp same]
      exact strApp_longer last title

theorem At.enter (here : At scan menus) (less : menus.length < GRUB2_MAX_MENU_LEVEL) (head : Head) : ∃ scan',
    scanLine strApp scan (head.line (text "submenu")) = some scan' ∧
      At scan' (menus ++ [strApp menus.getLast? head.title]) ∧
        scan'.opts = scan.opts ++ [strApp menus.getLast? head.title] ∧
          ∀ i, i < menus.length → scan'.menus[i]? = scan.menus[i]? := by
  have menu := here.menu (Nat.le_refl _)
  rw [take_length,← here.level] at menu
  refine ⟨_,scanLine_submenu scan head (here.level ▸ less),?_,by rw [menu],fun i inside => ?_⟩
  · rw [menu]
    refine ⟨?_,here.out,?_,fun i inside => ?_,longer_snoc here.longer head.title⟩
    · rw [length_append,length_singleton]
      exact congrArg (·+1) here.level
    · rw [length_set]
      exact here.stack
    · rw [length_append,length_singleton] at inside
      by_cases last : i = menus.length
      · subst last
        refine ⟨scan.opts.length,?_,?_⟩
        · rw [here.level,getElem?_set_self (by rw [here.stack]; exact less)]
        · rw [getElem?_append_right (Nat.le_refl _),getElem?_append_right (Nat.le_refl _),Nat.sub_self, Nat.sub_self]
      · have before : i < menus.length := by omega
        obtain ⟨place,is_place,found⟩ := here.found i before
        refine ⟨place,?_,?_⟩
        · rw [here.level,getElem?_set_ne (Ne.symm last)]
          exact is_place
        · rw [getElem?_append_left before,← found]
          refine getElem?_append_left ?_
          rw [List.getElem?_eq_getElem before] at found
          exact (List.getElem?_eq_some_iff.mp found).1
  · rw [here.level,List.getElem?_set_ne (Nat.ne_of_gt inside)]

theorem scan_plain : ∀ (items : List Item) (scan : Scan Bytes), (∀ item ∈ items, item.isPlain) → ∃ scan',
    scanLines strApp scan (linesOf items) = some scan' ∧ scan'.opts = scan.opts ∧ scan'.menus = scan.menus ∧
      scan'.menuLvl = scan.menuLvl ∧ scan'.inEntry = scan.inEntry := by
  intro items
  induction items with
  | nil => exact fun scan _ => ⟨scan,rfl,rfl,rfl,rfl,rfl⟩
  | cons item items ih =>
    intro scan plain
    cases item with
    | plain line printable idle =>
      obtain ⟨next,read,opts,stack,level,inEntry⟩ := scanLine_idle scan idle
      obtain ⟨scan',rest,opts',stack',level',inEntry'⟩ := ih next fun other member =>
        plain other (mem_cons_of_mem _ member)
      refine ⟨scan',?_,opts'.trans opts,stack'.trans stack,level'.trans level,inEntry'.trans inEntry⟩
      rw [linesOf,Item.lines,singleton_append,scanLines_cons,read]
      exact rest
    | entry => exact absurd (plain _ (mem_cons_self ..)) id
    | submenu => exact absurd (plain _ (mem_cons_self ..)) id

theorem paths_plain (menu : Option Bytes) : ∀ (items : List Item), (∀ item ∈ items, item.isPlain) →
    pathsOf menu items = [] ∧ lostOf items = 0 ∧ SoundIn items := by
  intro items
  induction items with
  | nil => exact fun _ => ⟨rfl,rfl,trivial⟩
  | cons item items ih =>
    intro plain
    have others := fun other member => plain other (mem_cons_of_mem _ member)
    obtain ⟨paths,lost,sound⟩ := ih others
    cases item with
    | plain line printable idle =>
      refine ⟨paths,?_,trivial,fun _ => others,sound⟩
      rw [lostOf,lost]
      rfl
    | entry => exact absurd (plain _ (mem_cons_self ..)) id
    | submenu => exact absurd (plain _ (mem_cons_self ..)) id

mutual
theorem Item.runs : ∀ (item : Item) (scan : Scan Bytes) (menus : List Bytes), item.Sound → At scan menus →
    item.depth+menus.length ≤ GRUB2_MAX_MENU_LEVEL → ∃ scan', scanLines strApp scan item.lines = some scan' ∧
      Behind scan scan' menus (item.paths menus.getLast?) item.lost
  | .plain line _ idle => by
    intro scan menus _ here _
    obtain ⟨scan',read,opts,stack,level,inEntry⟩ := scanLine_idle scan idle
    refine ⟨scan',by rw [Item.lines,scanLines_cons,read]; rfl,?_,level.trans here.level,inEntry.trans here.out,
      stack ▸ here.stack,fun i _ => by rw [stack]⟩
    rw [opts,Item.paths,append_nil]
  | .entry head body close => by
    intro scan menus _ here deep
    rw [Item.depth,Nat.zero_add] at deep
    have menu := here.menu (Nat.le_refl _)
    rw [take_length,← here.level] at menu
    have begins := scanLine_entry scan head (here.level ▸ deep)
    rw [menu] at begins
    obtain ⟨scan',rest,opts,stack,out,level⟩ := scan_body body close
      { scan with opts := scan.opts ++ [strApp menus.getLast? head.title],inEntry := true }
    refine ⟨scan',?_,opts,?_,out,stack ▸ here.stack,fun i _ => by rw [stack]⟩
    · rw [Item.lines,scanLines_cons,begins]
      exact rest
    · rw [level,if_pos rfl,Item.lost]
      exact congrArg (· - lostIn body) here.level
  | .submenu head items close => by
    intro scan menus sound here deep
    rw [Item.depth] at deep
    obtain ⟨inner,begins,inside,added,kept⟩ := here.enter (by omega) head
    have room : depthOf items+(menus ++ [strApp menus.getLast? head.title]).length ≤ GRUB2_MAX_MENU_LEVEL := by
      rw [length_append,length_singleton]
      omega
    obtain ⟨last,rest,behind⟩ := runs_items items _ _ sound inside (by simp) room
    refine ⟨{ last with menuLvl := last.menuLvl-1 },?_,?_,?_,behind.out,behind.stack,fun i less => ?_⟩
    · rw [Item.lines,scanLines_cons,begins,bind_some,scanLines_append,rest,bind_some,scanLines_cons,
        scanLine_close (menuLine_close close),behind.out]
      rfl
    · rw [behind.opts,added,getLast?_append,getLast?_singleton,some_or,Item.paths,append_assoc]
      rfl
    · have level := behind.level
      rw [length_append,length_singleton] at level
      rw [Item.lost]
      simp only [level]
      omega
    · rw [← kept i less]
      exact behind.kept i (by rw [length_append,length_singleton]; omega)

theorem runs_items : ∀ (items : List Item) (scan : Scan Bytes) (menus : List Bytes), SoundIn items → At scan menus →
    menus ≠ [] → depthOf items+menus.length ≤ GRUB2_MAX_MENU_LEVEL → ∃ scan',
      scanLines strApp scan (linesOf items) = some scan' ∧
        Behind scan scan' menus (pathsOf menus.getLast? items) (lostOf items)
  | [] => by
    intro scan menus _ here _ _
    exact ⟨scan,rfl,.refl here⟩
  | item :: items => by
    intro scan menus sound here deeper deep
    rw [depthOf] at deep
    obtain ⟨own,follows,rest⟩ := sound
    obtain ⟨next,first,behind⟩ := item.runs _ _ own here (by omega)
    by_cases whole : item.lost = 0
    · rw [whole] at behind
      obtain ⟨scan',second,behind'⟩ := runs_items items _ _ rest (here.behind behind) deeper (by omega)
      refine ⟨scan',?_,?_⟩
      · rw [linesOf,scanLines_append,first]
        exact second
      · rw [pathsOf,lostOf,whole,Nat.zero_add]
        exact behind.trans behind'
    · obtain ⟨scan',second,opts,stack,level,inEntry⟩ := scan_plain items next (follows whole)
      obtain ⟨paths,lost,_⟩ := paths_plain menus.getLast? items (follows whole)
      refine ⟨scan',?_,?_⟩
      · rw [linesOf,scanLines_append,first]
        exact second
      · rw [pathsOf,lostOf,paths,lost,append_nil,Nat.add_zero]
        refine ⟨opts.trans behind.opts,level.trans behind.level,inEntry.trans behind.out,stack ▸ behind.stack,
          fun i less => ?_⟩
        rw [stack]
        exact behind.kept i less
end

theorem Behind.top (behind : Behind scan scan' [] paths lost) : Behind scan scan' [] paths 0 :=
  ⟨behind.opts,behind.level.trans (Nat.zero_sub lost),behind.out,behind.stack,behind.kept⟩

theorem runs_menu : ∀ (items : List Item) {scan : Scan Bytes}, (∀ item ∈ items, item.Sound) → At scan [] →
    depthOf items ≤ GRUB2_MAX_MENU_LEVEL → ∃ scan', scanLines strApp scan (linesOf items) = some scan' ∧
      Behind scan scan' [] (pathsOf none items) 0 := by
  intro items
  induction items with
  | nil => exact fun _ here _ => ⟨_,rfl,.refl here⟩
  | cons item items ih =>
    intro scan sound here deep
    rw [depthOf] at deep
    obtain ⟨next,first,behind⟩ := item.runs _ _ (sound item (mem_cons_self ..)) here
      (by rw [length_nil]; omega)
    obtain ⟨scan',second,behind'⟩ := ih (fun other member => sound other (mem_cons_of_mem _ member))
      (here.behind behind.top) (by omega)
    refine ⟨scan',?_,behind.top.trans behind'⟩
    rw [linesOf,scanLines_append,first]
    exact second

theorem buildBootList_grows {title : Bytes} {opts : List Bytes} (built : buildBootList strApp scan title = some opts) :
    scan.opts <+: opts := by
  obtain ⟨_,_,rfl⟩ := Option.map_eq_some_iff.mp built
  exact prefix_append ..

theorem scanLine_grows {line : Bytes} (read : scanLine strApp scan line = some scan') : scan.opts <+: scan'.opts := by
  rw [scanLine] at read
  split at read
  · obtain rfl := Option.some.inj read
    exact prefix_rfl
  · split at read
    · obtain ⟨opts,built,rfl⟩ := Option.map_eq_some_iff.mp read
      exact buildBootList_grows built
    · obtain rfl := Option.some.inj read
      exact prefix_rfl
  · split at read
    · obtain ⟨opts,built,rfl⟩ := Option.map_eq_some_iff.mp read
      exact buildBootList_grows built
    · obtain rfl := Option.some.inj read
      exact prefix_rfl
  · split at read
    · obtain rfl := Option.some.inj read
      exact prefix_rfl
    · obtain rfl := Option.some.inj read
      exact prefix_rfl
  · obtain rfl := Option.some.inj read
    exact prefix_rfl

theorem scanLines_grows : ∀ {printed : List Bytes} {scan : Scan Bytes}, scanLines strApp scan printed = some fin →
    scan.opts <+: fin.opts := by
  intro printed
  induction printed with
  | nil =>
    intro scan read
    obtain rfl := Option.some.inj read
    exact prefix_rfl
  | cons line printed ih =>
    intro scan read
    rw [scanLines_cons] at read
    obtain ⟨next,first,rest⟩ := Option.bind_eq_some_iff.mp read
    exact (scanLine_grows first).trans (ih rest)

theorem Behind.menu (behind : Behind scan scan' menus paths lost) (here : At scan menus) :
    (if 0 < scan'.menuLvl then scan'.menus[scan'.menuLvl-1]?.bind (scan'.opts[·]?) else none) =
      (menus.take (menus.length-lost)).getLast? := by
  rw [← here.menu (Nat.sub_le ..),behind.level]
  split
  · rename_i some
    have inside : menus.length-lost-1 < menus.length := by omega
    obtain ⟨place,is_place,found⟩ := here.found _ inside
    rw [behind.kept _ inside,is_place,bind_some,bind_some,behind.opts]
    refine getElem?_append_left ?_
    rw [List.getElem?_eq_getElem inside] at found
    exact (List.getElem?_eq_some_iff.mp found).1
  · rfl

theorem path_shorter (here : At scan menus) (deeper : menus ≠ []) (lost : Nat) (gone : lost ≠ 0) (title : Bytes) :
    strApp (menus.take (menus.length-lost)).getLast? title ≠ strApp menus.getLast? title := by
  intro same
  have length := congrArg length same
  have last := getLast?_eq_some_getLast deeper
  have positive : 0 < menus.length := length_pos_of_ne_nil deeper
  rw [last,strApp,length_append,length_append] at length
  have separator : SEP.length = 4 := by decide
  cases level : menus.length-lost with
  | zero =>
    rw [level,take_zero,getLast?_nil,strApp] at length
    omega
  | succ n =>
    have inside : n < menus.length := by omega
    have before : n < menus.length-1 := by omega
    have taken : (menus.take (n+1)).getLast? = some menus[n] := by
      rw [getLast?_take]
      simp [getElem?_eq_getElem inside]
    have shorter := pairwise_iff_getElem.mp here.longer n (menus.length-1) inside (by omega) before
    rw [level,taken,strApp,length_append,length_append,getLast_eq_getElem] at length
    omega

theorem Behind.rest_plain (here : At scan menus) (deeper : menus ≠ []) (gone : lost ≠ 0) {behindLines : List Bytes}
    {more : List Bytes} : ∀ (items : List Item) {scan' : Scan Bytes} {paths : List Bytes},
      Behind scan scan' menus paths lost → depthOf items+menus.length ≤ GRUB2_MAX_MENU_LEVEL →
        scanLines strApp scan' (linesOf items ++ behindLines) = some fin →
          fin.opts = scan'.opts ++ (pathsOf menus.getLast? items ++ more) → ∀ item ∈ items, item.isPlain := by
  intro items
  induction items with
  | nil => exact fun _ _ _ _ _ member => (nomatch member)
  | cons item items ih =>
    intro scan' paths behind deep read listed
    rw [depthOf] at deep
    have menu := behind.menu here
    have level := behind.level
    have positive : 0 < menus.length := length_pos_of_ne_nil deeper
    -- the title that comes next is behind the wrong path
    have wrong {head : Head} {next : Scan Bytes} {rest : List Bytes}
        (added : next.opts = scan'.opts ++ [strApp (menus.take (menus.length-lost)).getLast? head.title])
        (read : scanLines strApp next rest = some fin)
        (listed : ∃ others, fin.opts = scan'.opts ++ strApp menus.getLast? head.title :: others) : False := by
      obtain ⟨others,listed⟩ := listed
      obtain ⟨grown,eq⟩ := scanLines_grows read
      rw [added,listed,append_assoc,singleton_append] at eq
      exact path_shorter here deeper lost gone head.title (cons.inj (append_cancel_left eq)).1
    cases item with
    | plain line printable idle =>
      intro other member
      rcases mem_cons.mp member with rfl | inside
      · trivial
      obtain ⟨next,first,opts,stack,same,inEntry⟩ := scanLine_idle scan' idle
      rw [linesOf,Item.lines,singleton_append,cons_append,scanLines_cons,first] at read
      have still : Behind scan next menus paths lost :=
        ⟨opts.trans behind.opts,same.trans behind.level,inEntry.trans behind.out,stack ▸ behind.stack,
          fun i less => by rw [stack]; exact behind.kept i less⟩
      refine ih still (by omega) read ?_ other inside
      rw [opts,listed,pathsOf]
      rfl
    | entry head body close =>
      have begins := scanLine_entry scan' head (by omega)
      rw [linesOf,Item.lines,cons_append,cons_append,scanLines_cons,begins,menu] at read
      exact (wrong rfl read ⟨_,listed⟩).elim
    | submenu head inner close =>
      have begins := scanLine_submenu scan' head (by omega)
      rw [linesOf,Item.lines,cons_append,cons_append,scanLines_cons,begins,menu] at read
      exact (wrong rfl read ⟨_,listed⟩).elim

mutual
theorem Item.sound_of : ∀ (item : Item) (scan : Scan Bytes) (menus behindLines more : List Bytes), At scan menus →
    item.depth+menus.length ≤ GRUB2_MAX_MENU_LEVEL → scanLines strApp scan (item.lines ++ behindLines) = some fin →
      fin.opts = scan.opts ++ (item.paths menus.getLast? ++ more) → item.Sound
  | .plain _ _ _ => by
    intros
    trivial
  | .entry _ _ _ => by
    intros
    trivial
  | .submenu head items close => by
    intro scan menus behindLines more here deep read listed
    rw [Item.depth] at deep
    obtain ⟨inner,begins,inside,added,_⟩ := here.enter (by omega) head
    rw [Item.lines,cons_append,scanLines_cons,begins,bind_some,append_assoc] at read
    refine sound_in items inner _ _ more inside (by simp) ?_ read ?_
    · rw [length_append,length_singleton]
      omega
    · rw [added,listed,Item.paths,getLast?_append,getLast?_singleton,some_or,append_assoc]
      rfl

theorem sound_in : ∀ (items : List Item) (scan : Scan Bytes) (menus behindLines more : List Bytes), At scan menus →
    menus ≠ [] → depthOf items+menus.length ≤ GRUB2_MAX_MENU_LEVEL →
      scanLines strApp scan (linesOf items ++ behindLines) = some fin →
        fin.opts = scan.opts ++ (pathsOf menus.getLast? items ++ more) → SoundIn items
  | [] => by
    intros
    trivial
  | item :: items => by
    intro scan menus behindLines more here deeper deep read listed
    rw [depthOf] at deep
    rw [linesOf,append_assoc] at read
    rw [pathsOf,append_assoc] at listed
    have own := item.sound_of scan menus _ _ here (by omega) read listed
    obtain ⟨next,first,behind⟩ := item.runs _ _ own here (by omega)
    rw [scanLines_append,first,bind_some] at read
    have rest : fin.opts = next.opts ++ (pathsOf menus.getLast? items ++ more) := by
      rw [listed,behind.opts,append_assoc]
    by_cases whole : item.lost = 0
    · refine ⟨own,fun gone => absurd whole gone,?_⟩
      rw [whole] at behind
      exact sound_in items next menus behindLines more (here.behind behind) deeper (by omega) read rest
    · have plain := Behind.rest_plain here deeper whole items behind (by omega) read rest
      exact ⟨own,fun _ => plain,(paths_plain none items plain).2.2⟩
end

theorem sound_menu : ∀ (items : List Item) (scan : Scan Bytes), At scan [] → depthOf items ≤ GRUB2_MAX_MENU_LEVEL →
    scanLines strApp scan (linesOf items) = some fin → fin.opts = scan.opts ++ pathsOf none items →
      ∀ item ∈ items, item.Sound := by
  intro items
  induction items with
  | nil => exact fun _ _ _ _ _ _ member => (nomatch member)
  | cons item items ih =>
    intro scan here deep read listed other member
    rw [depthOf] at deep
    rw [linesOf] at read
    rw [pathsOf] at listed
    have own := item.sound_of scan [] _ _ here (by rw [length_nil]; omega) read listed
    rcases mem_cons.mp member with rfl | inside
    · exact own
    obtain ⟨next,first,behind⟩ := item.runs _ _ own here (by rw [length_nil]; omega)
    rw [scanLines_append,first,bind_some] at read
    refine ih next (here.behind behind.top) (by omega) read ?_ other inside
    rw [listed,behind.opts,append_assoc]
    rfl

/-- The stack holds the places of entries. -/
def StackHolds (scan : Scan Bytes) : Prop := scan.menus.length = GRUB2_MAX_MENU_LEVEL ∧
  ∀ i, i < scan.menuLvl → i < GRUB2_MAX_MENU_LEVEL → ∃ menu, scan.menus[i]? = some menu ∧ menu < scan.opts.length

theorem scanLine_holds {line : Bytes} (holds : StackHolds scan) (read : scanLine strApp scan line = some scan') :
    StackHolds scan' := by
  obtain ⟨length,holds⟩ := holds
  have grows := (scanLine_grows read).length_le
  have below {menus : List Nat} {level : Nat} (le : level ≤ scan.menuLvl) (same : menus = scan.menus) (i : Nat)
      (less : i < level) (bound : i < GRUB2_MAX_MENU_LEVEL) :
      ∃ menu, menus[i]? = some menu ∧ menu < scan'.opts.length := by
    obtain ⟨menu,found,inside⟩ := holds i (by omega) bound
    exact ⟨menu,same ▸ found,by omega⟩
  rw [scanLine] at read
  split at read
  · obtain rfl := Option.some.inj read
    exact ⟨length,below (Nat.le_refl _) rfl⟩
  · split at read
    · obtain ⟨opts,_,rfl⟩ := Option.map_eq_some_iff.mp read
      exact ⟨length,below (Nat.le_refl _) rfl⟩
    · obtain rfl := Option.some.inj read
      exact ⟨length,below (Nat.le_refl _) rfl⟩
  · split at read
    · rename_i less
      obtain ⟨opts,built,rfl⟩ := Option.map_eq_some_iff.mp read
      obtain ⟨_,_,rfl⟩ := Option.map_eq_some_iff.mp built
      refine ⟨by rw [length_set]; exact length,fun i inside bound => ?_⟩
      by_cases last : i = scan.menuLvl
      · subst last
        exact ⟨_,getElem?_set_self (by omega),by simp⟩
      · rw [getElem?_set_ne (Ne.symm last)]
        exact below (Nat.le_refl _) rfl i (by simp only at inside; omega) bound
    · rename_i full
      obtain rfl := Option.some.inj read
      exact ⟨length,fun i _ bound => below (Nat.le_refl _) rfl i (by omega) bound⟩
  · split at read
    · obtain rfl := Option.some.inj read
      exact ⟨length,below (Nat.le_refl _) rfl⟩
    · obtain rfl := Option.some.inj read
      exact ⟨length,below (Nat.sub_le ..) rfl⟩
  · obtain rfl := Option.some.inj read
    exact ⟨length,below (Nat.le_refl _) rfl⟩

theorem scanLines_holds : ∀ {printed : List Bytes} {scan : Scan Bytes}, StackHolds scan →
    scanLines strApp scan printed = some fin → StackHolds fin := by
  intro printed
  induction printed with
  | nil =>
    intro scan holds read
    obtain rfl := Option.some.inj read
    exact holds
  | cons line printed ih =>
    intro scan holds read
    rw [scanLines_cons] at read
    obtain ⟨next,first,rest⟩ := Option.bind_eq_some_iff.mp read
    exact ih (scanLine_holds holds first) rest

theorem insideStack_of {front : List Bytes} {line : Bytes} (read : scanLines strApp Scan.start front = some scan) :
    InsideStack scan line := by
  have start : StackHolds (Scan.start : Scan Bytes) := by
    refine ⟨length_replicate,fun i inside => ?_⟩
    exact absurd inside (Nat.not_lt_zero i)
  obtain ⟨length,holds⟩ := scanLines_holds start read
  unfold InsideStack
  split
  · intro le some
    exact holds _ (by omega) (by omega)
  · intro less
    refine ⟨by omega,fun some => ?_⟩
    exact holds _ (by omega) (by omega)
  · trivial

theorem trimmed_some {buf : Bytes} : ∀ {n k : Nat}, trimmed buf n = some k → k < n ∧
    buf[k]?.any isSpace = false ∧ ∀ j, k < j → j < n → buf[j]?.any isSpace = true := by
  intro n
  induction n with
  | zero => exact fun found => (nomatch found)
  | succ n ih =>
    intro k found
    rw [trimmed] at found
    split at found
    · rename_i space
      obtain ⟨less,last,spaces⟩ := ih found
      refine ⟨by omega,last,fun j above inside => ?_⟩
      by_cases same : j = n
      · rw [same]
        exact space
      · exact spaces j above (by omega)
    · rename_i other
      obtain rfl := Option.some.inj found
      exact ⟨Nat.lt_succ_self _,Bool.eq_false_iff.mpr other,fun j above inside => by omega⟩

theorem trimmed_none {buf : Bytes} : ∀ {n : Nat}, trimmed buf n = none → ∀ j, j < n → buf[j]?.any isSpace = true := by
  intro n
  induction n with
  | zero => exact fun _ j inside => absurd inside (Nat.not_lt_zero j)
  | succ n ih =>
    intro gone j inside
    rw [trimmed] at gone
    split at gone
    · rename_i space
      by_cases last : j = n
      · rw [last]
        exact space
      · exact ih gone j (by omega)
    · cases gone

theorem matchKey_some {buf key ptr : Bytes} (found : matchKey buf key = some ptr) :
    ∃ c rest, ptr = c :: rest ∧ isSpace c = false ∧ ptr <:+ buf := by
  rw [matchKey] at found
  split at found
  · cases is : (buf.drop (key.length+1)).dropWhile isSpace with
    | nil =>
      rw [is] at found
      cases found
    | cons c rest =>
      rw [is] at found
      obtain rfl := Option.some.inj found
      refine ⟨c,rest,rfl,?_,?_⟩
      · have head := head?_dropWhile_not isSpace (buf.drop (key.length+1))
        simpa [is] using head
      · rw [← is]
        exact (dropWhile_suffix _).trans (drop_suffix ..)
  · cases found

theorem getElem?_suffix {buf rest : Bytes} {c : UInt8} (suffix : c :: rest <:+ buf) :
    buf[buf.length-(rest.length+1)]? = some c := by
  obtain ⟨front,rfl⟩ := suffix
  have place : (front ++ c :: rest).length-(rest.length+1) = front.length := by
    rw [length_append,length_cons]
    omega
  rw [place,getElem?_append_right (Nat.le_refl _),Nat.sub_self]
  rfl

theorem insideLine_iff (line : Bytes) : InsideLine line ↔ ¬ Blank line := by
  constructor
  · rintro ⟨place,found,_⟩ blank
    obtain ⟨last,is_last,_⟩ := Option.map_eq_some_iff.mp found
    obtain ⟨inside,other,_⟩ := trimmed_some is_last
    rw [getElem?_eq_getElem inside,Option.any_some,blank _ (getElem_mem inside)] at other
    cases other
  · intro ink
    cases is_last : trimmed line line.length with
    | none =>
      refine absurd (fun c member => ?_) ink
      obtain ⟨j,inside,rfl⟩ := getElem_of_mem member
      have space := trimmed_none is_last j inside
      rwa [getElem?_eq_getElem inside] at space
    | some last =>
      obtain ⟨inside,_,spaces⟩ := trimmed_some is_last
      unfold InsideLine bracePlace
      simp only [is_last,Option.map_some]
      cases set : matchKey (line.dropWhile isSpace) (text "set") with
      | none => exact ⟨_,rfl,by simp only; omega,by simp only; omega⟩
      | some ptr =>
        obtain ⟨c,rest,rfl,ordinary,suffix⟩ := matchKey_some set
        have whole := dropWhile_suffix isSpace (l := line)
        have first := getElem?_suffix (suffix.trans whole)
        have bound := whole.length_le
        have shorter := suffix.length_le
        rw [length_cons] at shorter
        -- the byte behind the keyword is no blank, so it is not behind the last one that is none
        have before : line.length-(rest.length+1) ≤ last := by
          by_contra above
          have space := spaces _ (Nat.lt_of_not_le above) (by omega)
          rw [first,Option.any_some,ordinary] at space
          cases space
        refine ⟨_,rfl,?_,?_⟩
        · simp only [length_cons]
          omega
        · simp only [length_cons]
          omega

/-- For a menu whose lines fit into the buffer: it is listed as it is, and nothing is read outside, just if each line
has something else than blanks on it and no entry whose end is found too early is followed by anything in its
submenus. -/
theorem lists_right_iff (items : List Item) (deep : depthOf items ≤ GRUB2_MAX_MENU_LEVEL)
    (fits : ∀ line ∈ linesOf items, line.length ≤ 998) :
    ListsRight items ↔ (∀ line ∈ linesOf items, ¬ Blank line) ∧ ∀ item ∈ items, item.Sound := by
  have printed : lines 1000 (print items) = linesOf items := lines_print _ (linesOf_printable items) fits
  have start : At Scan.start [] := ⟨rfl,rfl,length_replicate,fun i inside => absurd inside (Nat.not_lt_zero i),.nil⟩
  constructor
  · rintro ⟨listed,insideLine,_⟩
    rw [printed] at listed insideLine
    refine ⟨fun line member => (insideLine_iff line).mp (insideLine line member),?_⟩
    obtain ⟨fin,read,opts⟩ := Option.map_eq_some_iff.mp listed
    exact sound_menu items Scan.start start deep read (by rw [opts]; rfl)
  · rintro ⟨ink,sound⟩
    obtain ⟨fin,read,behind⟩ := runs_menu items sound start deep
    refine ⟨?_,fun line member => ?_,fun front line behindLines _ scan read => insideStack_of read⟩
    · rw [printed,read]
      exact congrArg some behind.opts
    · rw [printed] at member
      exact (insideLine_iff line).mpr (ink line member)

theorem ListsRight.offered {items : List Item} (right : ListsRight items) {w : World} {g : Globals}
    {grubConfig exec : String} (located : g.grubReboot.isSome) (file : w.fopen grubConfig = .ok (print items)) :
    (getGrub2OrBurg w g grubConfig exec).1 = .ok ⟨pathsOf none items,-1,-1⟩ ∨
      (getGrub2OrBurg w g grubConfig exec).1 = .error .noman := by
  obtain ⟨fin,read,opts⟩ := Option.map_eq_some_iff.mp right.listed
  have known : ¬ g.grubReboot.isNone := by
    rw [Option.isNone_iff_eq_none]
    intro unknown
    rw [unknown] at located
    cases located
  rw [getGrub2OrBurg]
  simp only [if_pos located,if_neg known,file,Except.bind,menuOpts,read]
  by_cases saved : fin.saved
  · left
    rw [if_pos saved]
    exact congrArg (fun opts => Except.ok (Listing.mk opts (-1) (-1))) opts
  · right
    rw [if_neg saved]
    rfl

theorem space_blank : Blank [32] := by
  unfold Blank
  decide +kernel

/-- A title of one letter in single quotes. -/
def letterHead (c : UInt8) (clean : c ≠ byte '\'' ∧ c ≠ 0 ∧ c ≠ newline) : Head where
  indent := []
  gap := [32]
  quoted := byte '\'' :: ([c] ++ [byte '\''])
  title := [c]
  tail := [32,byte '\x7b']
  indentBlank := nofun
  gapBlank := space_blank
  gapSome := by decide
  quotes := .single (by simpa using clean.1.symm)
  printable := by
    intro d member
    simp only [List.nil_append,List.cons_append,List.mem_cons,List.not_mem_nil,or_false] at member
    rcases member with rfl | rfl | rfl | rfl | rfl | rfl
    · decide
    · decide
    · exact clean.2
    · decide
    · decide
    · decide

def brace : Close := ⟨[],[],nofun,nofun,nofun⟩

def emptyLine : Item := .plain [] nofun (.inl (by decide))

/-- The brace of the variable stands where the end of the line is looked for. -/
def setRoot : BodyLine where
  line := text "set root=$\x7ba\x7d/xyz"
  printable := by
    unfold Printable
    decide +kernel
  noBrace := by decide
  noEntry := by decide
  noSubmenu := by decide

def entryA (body : List BodyLine) : Item := .entry (letterHead (byte 'A') (by decide)) body brace

def entryB : Item := .entry (letterHead (byte 'B') (by decide)) [] brace

/-- An entry with a `set` in a submenu, and another one behind it. -/
def menuS (body : List BodyLine) : Item := .submenu (letterHead (byte 'S') (by decide)) [entryA body,entryB] brace

/-- The second entry is listed as if it were in no submenu. -/
theorem blank_or_set_wrong : ¬ ListsRight [emptyLine,entryB] ∧ ¬ ListsRight [menuS [setRoot]] := by
  constructor
  · intro right
    have blank : Blank [] := nofun
    exact (insideLine_iff []).mp (right.insideLine [] (by decide)) blank
  · intro right
    exact absurd right.listed (by decide)

theorem menu_listed : ListsRight [menuS [],entryB] := by
  refine (lists_right_iff [menuS [],entryB] (by decide) (by decide)).mpr ⟨?_,?_⟩
  · unfold Blank
    decide +kernel
  · intro item member
    simp only [mem_cons,not_mem_nil,or_false] at member
    rcases member with rfl | rfl
    · exact ⟨trivial,nofun,trivial,nofun,trivial⟩
    · trivial

end GrubMenus

end KdeWorkspace.BootOptions
