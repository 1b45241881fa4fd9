import KdeWorkspace.SessionList
import Mathlib.Data.List.DropRight

/-!
The boot options of kdm: the entries of the menu of a boot manager are listed, one is chosen for the
next boot, and the boot manager is told about it at the shutdown.

What the helpers of the boot managers do is not looked into. A byte in front of a buffer is neither a
blank nor a brace, and memory does not run out.
-/
namespace KdeWorkspace.BootOptions
open PipeCodec (Bytes stringAt)
open SessionList (byte text newline isSpace)

/-- `BO_NOMAN`, `BO_NOENT` and `BO_IO`. -/
inductive BO
  | noman
  | noent
  | io
deriving Repr, DecidableEq

inductive BootManager
  | None
  | Grub
  | Grub2
  | Burg
  | Lilo
deriving Repr, DecidableEq

inductive File
  | absent
  | unreadable (mtime : Int)
  | readable (mtime : Int) (content : Bytes)
deriving DecidableEq

/-- What kdm finds outside. `lilo` is the output of `lilo -w -v -q` and whether that has failed. -/
structure World where
  locate : String → Option String
  file : String → File
  lilo : Option (Bytes × Bool)

def World.fopen (w : World) (name : String) : Except BO Bytes :=
  match w.file name with
  | .absent => .error .noman
  | .unreadable _ => .error .io
  | .readable _ content => .ok content

def World.mTime (w : World) (name : String) : Int :=
  match w.file name with
  | .absent => -1
  | .unreadable mtime => mtime
  | .readable mtime _ => mtime

structure Globals where
  grubSetDefault : Option String
  grub : Option String
  grubReboot : Option String
  grubConfig : Option String
  lilo : Option String
deriving Repr, DecidableEq

/-- The part of a request to shut down that says what to boot. -/
structure SdRec where
  osname : Option Bytes
  bmstamp : Int
  osindex : Nat
deriving Repr, DecidableEq

structure Listing where
  opts : List Bytes
  dflt : Int
  cur : Int
deriving Repr, DecidableEq

/-- What the helper of a boot manager is called for. -/
inductive Command
  | setDefault (program : String) (index : Nat)
  | savedefault (program : Option String) (index : Nat)
  | reboot (program : String) (name : Bytes)
  | lilo (program : Option String) (name : Bytes)
deriving Repr, DecidableEq

/-- What `fgets` reads, one call after the other, after it has read a part of a line. -/
def fgets (max : Nat) (part : Bytes) : Bytes → List Bytes
  | [] => if part = [] then [] else [part]
  | c :: rest =>
    if c = newline ∨ (part ++ [c]).length = max-1 then (part ++ [c]) :: fgets max [] rest
    else fgets max (part ++ [c]) rest

/-- The line that `fGets` makes of what has been read. -/
def fGets (buf : Bytes) : Bytes :=
  let str := stringAt buf
  if str.getLast? = some newline then str.dropLast else str

def lines (max : Nat) (content : Bytes) : List Bytes := (fgets max [] content).map fGets

def atoi (str : Bytes) : Int := ControlCommands.atoi (str.map fun c => Char.ofNat c.toNat)

/-- `match`: what comes behind a keyword. -/
def matchKey (buf key : Bytes) : Option Bytes :=
  if key <+: buf ∧ (buf[key.length]?).any isSpace then
    match (buf.drop (key.length+1)).dropWhile isSpace with
    | [] => none
    | ptr => some ptr
  else none

/-- What is in front of the first occurrence and what is behind it. -/
def strstr (before : Bytes) : Bytes → Option (Bytes × Bytes)
  | [] => if before = [] then some ([],[]) else none
  | c :: rest =>
    if before <+: c :: rest then some ([],(c :: rest).drop before.length)
    else (strstr before rest).map fun (front,behind) => (c :: front,behind)

/-- Replaces the first `n` occurrences. -/
def replaceFirst (before after : Bytes) : Nat → Bytes → Bytes
  | 0, str => str
  | n+1, str =>
    match strstr before str with
    | none => str
    | some (front,behind) => front ++ after ++ replaceFirst before after n behind

def replaceInString (str before after : Bytes) : Bytes := replaceFirst before after str.length str

def SEP : Bytes := text " >> "

def GRUB_MENU : String := "/boot/grub/menu.lst"

def locateGrub (w : World) (g : Globals) : Globals :=
  if g.grubSetDefault.isSome ∨ g.grub.isSome then g
  else
    let grubSetDefault := w.locate "grub-set-default"
    if grubSetDefault.isSome then { g with grubSetDefault } else { g with grub := w.locate "grub" }

def grubLine (l : Listing) (line : Bytes) : Listing :=
  let linp := line.dropWhile isSpace
  match matchKey linp (text "default") with
  | some ptr => { l with dflt := atoi ptr }
  | none =>
    match matchKey linp (text "title") with
    | some ptr => { l with opts := l.opts ++ [ptr.rdropWhile isSpace] }
    | none => l

def getGrub (w : World) (g : Globals) : Except BO Listing × Globals :=
  let g := locateGrub w g
  if g.grubSetDefault.isNone ∧ g.grub.isNone then (.error .noman,g)
  else ((w.fopen GRUB_MENU).map fun content => (lines 1000 content).foldl grubLine ⟨[],0,-1⟩,g)

/-- The number of the first title that reads so, counted from `i`. -/
def findTitle (opt : Bytes) (i : Nat) : List Bytes → Option Nat
  | [] => none
  | line :: rest =>
    match matchKey line (text "title") with
    | some ptr => if ptr = opt then some i else findTitle opt (i+1) rest
    | none => findTitle opt i rest

def setGrub (w : World) (opt : Bytes) : Except BO SdRec :=
  match w.fopen GRUB_MENU with
  | .error e => .error e
  | .ok content =>
    match findTitle opt 0 (lines 1000 content) with
    | some i => .ok ⟨some opt,w.mTime GRUB_MENU,i⟩
    | none => .error .noent

def commitGrub (w : World) (g : Globals) (sdRec : SdRec) (osname : Bytes) : Option Command := do
  let sdRec ← if sdRec.bmstamp ≠ w.mTime GRUB_MENU then (setGrub w osname).toOption else some sdRec
  match g.grubSetDefault with
  | some program => return .setDefault program sdRec.osindex
  | none => return .savedefault g.grub sdRec.osindex

def GRUB2_MAX_MENU_LEVEL : Nat := 5

/-- A title in double quotes, behind the first of them. -/
def doubleQuoted : Bytes → Option Bytes
  | [] => none
  | c :: rest =>
    if c = byte '"' then some []
    else if c = byte '\\' then
      match rest with
      | [] => none
      | d :: rest =>
        let kept := if d = byte '$' ∨ d = byte '"' ∨ d = byte '\\' then [d] else [byte '\\',d]
        (doubleQuoted rest).map (kept ++ ·)
    else (doubleQuoted rest).map ([c] ++ ·)

/-- A title without quotes. -/
def unquoted : Bytes → Option Bytes
  | [] => none
  | c :: rest =>
    if isSpace c then some []
    else if c = byte '\\' then
      match rest with
      | [] => none
      | d :: rest => (unquoted rest).map ([d] ++ ·)
    else (unquoted rest).map ([c] ++ ·)

def parseGrubTitle (title : Bytes) : Option Bytes :=
  match title with
  | [] => none
  | c :: rest =>
    if c = byte '\'' then
      if byte '\'' ∈ rest then some (rest.takeWhile (· ≠ byte '\'')) else none
    else if c = byte '"' then doubleQuoted rest
    else unquoted title

inductive MenuLine
  | savedEntry
  | menuentry (title : Bytes)
  | submenu (title : Bytes)
  | close
  | other
deriving Repr, DecidableEq

/-- A `set` that is about something else leaves the length of the rest behind, which is where the
    brace is looked for. -/
def menuLine (line : Bytes) : MenuLine :=
  let linp := line.dropWhile isSpace
  let len := (linp.rdropWhile isSpace).length
  let set := matchKey linp (text "set")
  if set.any (text "default=\"${saved_entry}\"" <+: ·) then .savedEntry
  else
    match matchKey linp (text "menuentry") with
    | some ptr => .menuentry ptr
    | none =>
      match matchKey linp (text "submenu") with
      | some ptr => .submenu ptr
      | none =>
        let len := match set with
          | some ptr => len-(linp.length-ptr.length)
          | none => len
        if 0 < len ∧ linp[len-1]? = some (byte '\x7d') then .close else .other

/-- How far the menu has been read. -/
structure Scan (α : Type) where
  opts : List α
  menus : List Nat
  menuLvl : Nat
  inEntry : Bool
  saved : Bool

section
variable {α : Type} (strApp : Option α → Bytes → α)

/-- The entry is listed behind the submenus that it is in. -/
def buildBootList (scan : Scan α) (title : Bytes) : Option (List α) :=
  (parseGrubTitle title).map fun title =>
    scan.opts ++ [strApp (if 0 < scan.menuLvl then scan.menus[scan.menuLvl-1]?.bind (scan.opts[·]?) else none) title]

def scanLine (scan : Scan α) (line : Bytes) : Option (Scan α) :=
  match menuLine line with
  | .savedEntry => some { scan with saved := true }
  | .menuentry title =>
    if scan.menuLvl ≤ GRUB2_MAX_MENU_LEVEL then
      (buildBootList strApp scan title).map fun opts => { scan with opts,inEntry := true }
    else some { scan with inEntry := true }
  | .submenu title =>
    if scan.menuLvl < GRUB2_MAX_MENU_LEVEL then
      (buildBootList strApp scan title).map fun opts =>
        { scan with opts,menus := scan.menus.set scan.menuLvl scan.opts.length,menuLvl := scan.menuLvl+1 }
    else some { scan with menuLvl := scan.menuLvl+1 }
  | .close =>
    if scan.inEntry then some { scan with inEntry := false }
    else some { scan with menuLvl := scan.menuLvl-1 }
  | .other => some scan

def scanLines (scan : Scan α) (menu : List Bytes) : Option (Scan α) := menu.foldlM (scanLine strApp) scan

def Scan.start : Scan α := ⟨[],List.replicate GRUB2_MAX_MENU_LEVEL 0,0,false,false⟩

/-- The entries of a menu. Without a saved entry nothing can be chosen. -/
def menuOpts (content : Bytes) : Except BO (List α) :=
  match scanLines strApp Scan.start (lines 1000 content) with
  | none => .error .io
  | some scan => if scan.saved then .ok scan.opts else .error .noman

end

def strApp : Option Bytes → Bytes → Bytes
  | some menu, title => menu ++ SEP ++ title
  | none, title => title

def getGrub2OrBurg (w : World) (g : Globals) (grubConfig grubRebootExec : String) : Except BO Listing × Globals :=
  let g := { g with grubConfig := some grubConfig }
  let g := if g.grubReboot.isSome then g else { g with grubReboot := w.locate grubRebootExec }
  if g.grubReboot.isNone then (.error .noman,g)
  else ((w.fopen grubConfig).bind fun content => (menuOpts strApp content).map (⟨·,-1,-1⟩),g)

def getGrub2 (w : World) (g : Globals) : Except BO Listing × Globals :=
  if w.file "/boot/grub2/grub.cfg" ≠ .absent then getGrub2OrBurg w g "/boot/grub2/grub.cfg" "grub2-reboot"
  else getGrub2OrBurg w g "/boot/grub/grub.cfg" "grub-reboot"

/-- The time of the file that was looked into last. -/
def configTime (w : World) (g : Globals) : Int := (g.grubConfig.map w.mTime).getD (-1)

def setGrub2 (w : World) (g : Globals) (sdr : SdRec) (opt : Bytes) : Except BO SdRec × Globals :=
  match getGrub2 w g with
  | (.error e,g) => (.error e,g)
  | (.ok l,g) =>
    if opt ∈ l.opts then
      (.ok { sdr with osname := some (replaceInString opt SEP (text ">")),bmstamp := configTime w g },g)
    else (.error .noent,g)

def commitGrub2 (w : World) (g : Globals) (sdRec : SdRec) (osname : Bytes) : Option Command := do
  let (sdRec,g) ← if sdRec.bmstamp ≠ configTime w g then
      match setGrub2 w g sdRec osname with
      | (.ok sdRec,g) => some (sdRec,g)
      | (.error _,_) => none
    else some (sdRec,g)
  let program ← g.grubReboot
  let osname ← sdRec.osname
  return .reboot program osname

def getBurg (w : World) (g : Globals) : Except BO Listing × Globals :=
  getGrub2OrBurg w g "/boot/burg/burg.cfg" "burg-reboot"

def Ldeflin : Bytes := text "  Default boot command line:"

/-- What is in front of the images: the label of the next boot, or the images are missing. -/
def liloHead (next : Bytes) : List Bytes → Option (Bytes × List Bytes)
  | [] => none
  | buf :: rest =>
    if text "Images:" <+: buf then some (next,rest)
    else if Ldeflin <+: buf then
      liloHead ((buf.drop (Ldeflin.length+2)).take (buf.length-Ldeflin.length-3)) rest
    else liloHead next rest

/-- Without a label nothing but blanks is left in front of the end, and the length is negative: then
    all of the string is taken. -/
def liloLabel (buf : Bytes) : Bytes :=
  let buf' := if buf.getLast? = some (byte '*') then buf.dropLast else buf
  let trimmed := buf'.rdropWhile (· = byte ' ')
  if trimmed.length < 2 then buf.drop 2 else trimmed.drop 2

def liloLine (next : Bytes) (l : Listing) (buf : Bytes) : Listing :=
  if buf[0]? = some (byte ' ') ∧ buf[1]? = some (byte ' ') ∧ buf[2]? ≠ some (byte ' ') then
    let cdef : Int := l.opts.length
    let dflt := if buf.getLast? = some (byte '*') then cdef else l.dflt
    let label := liloLabel buf
    ⟨l.opts ++ [label],dflt,if label = next then cdef else l.cur⟩
  else l

def getLilo (w : World) (g : Globals) : Except BO Listing × Globals :=
  let g := if g.lilo.isSome then g else { g with lilo := w.locate "lilo" }
  if g.lilo.isNone then (.error .noman,g)
  else
    match w.lilo with
    | none => (.error .io,g)
    | some (output,failed) =>
      if failed then (.error .io,g)
      else
        match liloHead [] (lines 256 output) with
        | none => (.error .noman,g)
        | some (next,images) => (.ok (images.foldl (liloLine next) ⟨[],0,-1⟩),g)

def setLilo (w : World) (g : Globals) (sdr : SdRec) (opt : Bytes) : Except BO SdRec × Globals :=
  match getLilo w g with
  | (.error e,g) => (.error e,g)
  | (.ok l,g) =>
    if opt = [] then (.ok { sdr with osname := none },g)
    else if opt ∈ l.opts then (.ok { sdr with osname := some opt },g)
    else (.error .noent,g)

def commitLilo (g : Globals) (osname : Bytes) : Option Command := some (.lilo g.lilo osname)

def getBootOptions (b : BootManager) (w : World) (g : Globals) : Except BO Listing × Globals :=
  match b with
  | .None => (.error .noman,g)
  | .Grub => getGrub w g
  | .Grub2 => getGrub2 w g
  | .Burg => getBurg w g
  | .Lilo => getLilo w g

def setOption (b : BootManager) (w : World) (g : Globals) (sdr : SdRec) (opt : Bytes) : Except BO SdRec × Globals :=
  match b with
  | .None => (.error .noman,g)
  | .Grub => (setGrub w opt,g)
  | .Grub2 | .Burg => setGrub2 w g sdr opt
  | .Lilo => setLilo w g sdr opt

def setBootOption (b : BootManager) (w : World) (g : Globals) (sdr : SdRec) :
    Option Bytes → Except BO SdRec × Globals
  | none => (.ok { sdr with osname := none },g)
  | some opt => setOption b w g { sdr with osname := none } opt

def commitBootOption (b : BootManager) (w : World) (g : Globals) (sdRec : SdRec) : Option Command :=
  sdRec.osname.bind fun osname =>
    match b with
    | .None => none
    | .Grub => commitGrub w g sdRec osname
    | .Grub2 | .Burg => commitGrub2 w g sdRec osname
    | .Lilo => commitLilo g osname

/-- What happens between the choice and the shutdown: the options are listed again, another request
    chooses one, or files are written. -/
inductive Event
  | list
  | choose (sdr : SdRec) (opt : Option Bytes)
  | rewrite (w : World)

def step (b : BootManager) : World × Globals → Event → World × Globals
  | (w,g), .list => (w,(getBootOptions b w g).2)
  | (w,g), .choose sdr opt => (w,(setBootOption b w g sdr opt).2)
  | (_,g), .rewrite w => (w,g)

def run (b : BootManager) (s : World × Globals) (events : List Event) : World × Globals := events.foldl (step b) s

end KdeWorkspace.BootOptions
