import KdeWorkspace.WeakOrders
import Mathlib.Algebra.Group.Nat.Defs
import Mathlib.Data.List.Lex
import Mathlib.Data.Prod.Lex

/-!
The order of the processes in the table of the system monitor, column by column.

A sort wants a strict weak order. Most columns compare one number and give one. Traced processes, two of the
schedulers and the names of terminals do not, and the columns that look further for processes of one user or of
one terminal do not where another user or terminal counts as the same: `lessThan_weak_iff` says for which
processes each of the columns is right.

Texts are lists of their code units and the name of a terminal is the list of its bytes.
-/
namespace KdeWorkspace.ProcessOrders
open WeakOrders

inductive Scheduler
  | Other
  | Fifo
  | RoundRobin
  | Batch
  | SchedulerIdle
  | Interactive
deriving Repr, DecidableEq

/-- What the columns compare. -/
structure Process where
  pid : Int
  uid : Int
  tracerpid : Int
  tty : List Nat
  userTime : Int
  sysTime : Int
  userUsage : Int
  sysUsage : Int
  totalUserUsage : Int
  totalSysUsage : Int
  niceLevel : Int
  scheduler : Scheduler
  vmSize : Int
  vmRSS : Int
  vmURSS : Int
  pixmapBytes : Nat
  hasManagedGuiWindow : Bool
  ioCharactersRead : Int
  ioCharactersWritten : Int
  ioReadSyscalls : Int
  ioWriteSyscalls : Int
  ioCharactersActuallyRead : Int
  ioCharactersActuallyWritten : Int
  ioCharactersReadRate : Int
  ioCharactersWrittenRate : Int
  ioReadSyscallsRate : Int
  ioWriteSyscallsRate : Int
  ioCharactersActuallyReadRate : Int
  ioCharactersActuallyWrittenRate : Int
deriving Repr, DecidableEq

/-- The columns with an order of their own. The others compare the texts that they show. -/
inductive Heading
  | HeadingUser
  | HeadingPid
  | HeadingTty
  | HeadingNiceness
  | HeadingCPUUsage
  | HeadingCPUTime
  | HeadingIoRead
  | HeadingIoWrite
  | HeadingVmSize
  | HeadingMemory
  | HeadingSharedMemory
  | HeadingXMemory
deriving Repr, DecidableEq

inductive IoInformation
  | Bytes
  | Syscalls
  | ActualBytes
  | BytesRate
  | SyscallsRate
  | ActualBytesRate
deriving Repr, DecidableEq

structure KUser where
  loginName : List Nat
  shell : String
deriving Repr, DecidableEq

/-- What the model knows beside the processes: its settings, the user it runs as and the users of the host. -/
structure ProcessModel where
  mIsLocalhost : Bool
  mSimple : Bool
  mShowChildTotals : Bool
  mIoInformation : IoInformation
  getuid : Int
  user : Int → Option KUser

namespace ProcessModel

def canUserLogin (d : ProcessModel) (uid : Int) : Bool :=
  if uid = 65534 then false
  else if !d.mIsLocalhost then true
  else
    match d.user uid with
    | none => true
    | some user => user.shell ≠ "/bin/false"

def number (uid : Int) : List Nat := (toString uid).toList.map Char.toNat

def getUsernameForUser (d : ProcessModel) (uid : Int) : List Nat :=
  let username :=
    if !d.mIsLocalhost then []
    else
      match d.user uid with
      | none => []
      | some user => user.loginName
  if username = [] then number uid else username

def isSystemUser (d : ProcessModel) (uid : Int) : Bool := uid < 100 || !d.canUserLogin uid

/-- The percentages in hundredths wrap as an `int` does. -/
def cpu (d : ProcessModel) (process : Process) : Int :=
  if d.mSimple || !d.mShowChildTotals then (process.userUsage + process.sysUsage).bmod (2^32)
  else (process.totalUserUsage + process.totalSysUsage).bmod (2^32)

def cpuTime (process : Process) : Int := (process.userTime + process.sysTime).bmod (2^64)

def memory (process : Process) : Int := if process.vmURSS ≠ -1 then process.vmURSS else process.vmRSS

def sharedMemory (process : Process) : Int :=
  if process.vmURSS ≠ -1 then (process.vmRSS - process.vmURSS).bmod (2^64) else 0

def ioRead (d : ProcessModel) (process : Process) : Int :=
  match d.mIoInformation with
  | .Bytes => process.ioCharactersRead
  | .Syscalls => process.ioReadSyscalls
  | .ActualBytes => process.ioCharactersActuallyRead
  | .BytesRate => process.ioCharactersReadRate
  | .SyscallsRate => process.ioReadSyscallsRate
  | .ActualBytesRate => process.ioCharactersActuallyReadRate

def ioWrite (d : ProcessModel) (process : Process) : Int :=
  match d.mIoInformation with
  | .Bytes => process.ioCharactersWritten
  | .Syscalls => process.ioWriteSyscalls
  | .ActualBytes => process.ioCharactersActuallyWritten
  | .BytesRate => process.ioCharactersWrittenRate
  | .SyscallsRate => process.ioWriteSyscallsRate
  | .ActualBytesRate => process.ioCharactersActuallyWrittenRate

/-- By the users, which are two different ones. -/
def usersLess (d : ProcessModel) (left right : Int) : Bool :=
  if d.mIsLocalhost && left == d.getuid then true
  else if d.mIsLocalhost && right == d.getuid then false
  else if d.isSystemUser left && !d.isSystemUser right then false
  else if !d.isSystemUser left && d.isSystemUser right then true
  else d.getUsernameForUser left < d.getUsernameForUser right

def userLess (d : ProcessModel) (left right : Process) : Bool :=
  if 0 ≤ left.tracerpid then true
  else if 0 ≤ right.tracerpid then false
  else if left.uid ≠ right.uid then d.usersLess left.uid right.uid
  else if left.hasManagedGuiWindow && !right.hasManagedGuiWindow then true
  else if !left.hasManagedGuiWindow && right.hasManagedGuiWindow then false
  else if d.cpu left ≠ d.cpu right then d.cpu right < d.cpu left
  else memory right < memory left

def realTime (scheduler : Scheduler) : Bool := scheduler = .RoundRobin || scheduler = .Fifo

def niceLess (left right : Process) : Bool :=
  if left.niceLevel = right.niceLevel then left.pid < right.pid else left.niceLevel < right.niceLevel

def nicenessLess (left right : Process) : Bool :=
  if left.scheduler ≠ right.scheduler then
    if realTime left.scheduler then true
    else if realTime right.scheduler then false
    else if left.scheduler = .Other then true
    else if right.scheduler = .Other then false
    else if left.scheduler = .Batch then true
    else niceLess left right
  else niceLess left right

def isDigit (c : Nat) : Bool := 48 ≤ c && c ≤ 57

/-- `toInt` is nought where the number is too large. -/
def toInt (digits : List Nat) : Nat :=
  let n := digits.foldl (fun n c => n * 10 + (c - 48)) 0
  if n < 2^31 then n else 0

/-- What `^(\D*)(\d*)$` captures. The text ends in front of the first zero. -/
def captures (tty : List Nat) : Option (List Nat ×ₗ Nat) :=
  let text := tty.takeWhile (· ≠ 0)
  let digits := text.dropWhile (!isDigit ·)
  if digits.all isDigit then some (toLex (text.takeWhile (!isDigit ·),toInt digits)) else none

/-- By the names of the terminals, which are two different ones. -/
def ttysLess (left right : List Nat) : Bool :=
  if left = [] then false
  else if right = [] then true
  else
    match captures left, captures right with
    | some l, some r =>
      if (ofLex l).1 < (ofLex r).1 then true
      else if (ofLex r).1 < (ofLex l).1 then false
      else (ofLex l).2 < (ofLex r).2
    | _, _ => left < right

def ttyLess (left right : Process) : Bool :=
  if left.tty = right.tty then left.pid < right.pid else ttysLess left.tty right.tty

def lessThan (d : ProcessModel) (column : Heading) (left right : Process) : Bool :=
  match column with
  | .HeadingUser => d.userLess left right
  | .HeadingCPUUsage => d.cpu right < d.cpu left
  | .HeadingCPUTime => cpuTime right < cpuTime left
  | .HeadingMemory => memory right < memory left
  | .HeadingXMemory => right.pixmapBytes < left.pixmapBytes
  | .HeadingVmSize => right.vmSize < left.vmSize
  | .HeadingSharedMemory => sharedMemory right < sharedMemory left
  | .HeadingPid => right.pid < left.pid
  | .HeadingNiceness => nicenessLess left right
  | .HeadingTty => ttyLess left right
  | .HeadingIoRead => d.ioRead right < d.ioRead left
  | .HeadingIoWrite => d.ioWrite right < d.ioWrite left

/-- Whether the column sorts these processes as a sort can rely on. -/
def Weak (d : ProcessModel) (column : Heading) (s : Set Process) : Prop :=
  StrictWeakOn (fun left right => d.lessThan column left right = true) s

/-- Where a user stands: the own one, then the others, then the ones of the system, each of them by name. -/
def userKey (d : ProcessModel) (uid : Int) : Nat ×ₗ List Nat :=
  if d.mIsLocalhost && uid == d.getuid then toLex (0,[])
  else toLex (if d.isSystemUser uid then 2 else 1,d.getUsernameForUser uid)

/-- What orders the processes of one user. -/
def processKey (d : ProcessModel) (process : Process) : Bool ×ₗ Int ×ₗ Int :=
  toLex (!process.hasManagedGuiWindow,toLex (-d.cpu process,-memory process))

theorem usersLess_iff (d : ProcessModel) {left right : Int} (differ : left ≠ right) :
    d.usersLess left right = true ↔ d.userKey left < d.userKey right := by
  unfold usersLess userKey
  by_cases own : (d.mIsLocalhost && left == d.getuid) = true
  · have other : (d.mIsLocalhost && right == d.getuid) = false := by grind
    rw [if_pos own,if_pos own,if_neg (by simp [other])]
    simp only [Prod.Lex.toLex_lt_toLex,true_iff]
    left
    split <;> decide
  · rw [if_neg own,if_neg own]
    by_cases other : (d.mIsLocalhost && right == d.getuid) = true
    · rw [if_pos other,if_pos other]
      simp [Prod.Lex.toLex_lt_toLex]
    · rw [if_neg other,if_neg other]
      cases leftSystem : d.isSystemUser left <;> cases rightSystem : d.isSystemUser right <;>
        simp [Prod.Lex.toLex_lt_toLex]

variable {left right : Process}

theorem userLess_same (d : ProcessModel) (leftFree : left.tracerpid < 0)
    (rightFree : right.tracerpid < 0) (same : left.uid = right.uid) :
    d.userLess left right = true ↔ d.processKey left < d.processKey right := by
  unfold userLess processKey
  rw [if_neg (Int.not_le.mpr leftFree),if_neg (Int.not_le.mpr rightFree),if_neg (fun differ => differ same)]
  simp only [Prod.Lex.toLex_lt_toLex,Int.neg_lt_neg_iff,Int.neg_inj]
  have further : (if d.cpu left ≠ d.cpu right then decide (d.cpu right < d.cpu left)
      else decide (memory right < memory left)) = true ↔
      d.cpu right < d.cpu left ∨ d.cpu left = d.cpu right ∧ memory right < memory left := by
    by_cases cpu : d.cpu left = d.cpu right
    · simp [cpu]
    · simp [cpu]
  cases leftWindow : left.hasManagedGuiWindow <;> cases rightWindow : right.hasManagedGuiWindow
  · simpa using further
  · simp
  · simp
  · simpa using further

theorem userLess_differ (d : ProcessModel) (leftFree : left.tracerpid < 0)
    (rightFree : right.tracerpid < 0) (differ : left.uid ≠ right.uid) :
    d.userLess left right = true ↔ d.userKey left.uid < d.userKey right.uid := by
  unfold userLess
  rw [if_neg (Int.not_le.mpr leftFree),if_neg (Int.not_le.mpr rightFree),if_pos differ]
  exact d.usersLess_iff differ

theorem user_weak_iff (d : ProcessModel) (s : Set Process) :
    d.Weak .HeadingUser s ↔ (∀ p ∈ s, p.tracerpid < 0) ∧ ∀ p ∈ s, ∀ q ∈ s, ∀ r ∈ s, p.uid = q.uid → r.uid ≠ p.uid →
      d.userKey r.uid = d.userKey p.uid → ¬ d.processKey p < d.processKey q := by
  have free_of_weak : d.Weak .HeadingUser s → ∀ p ∈ s, p.tracerpid < 0 := by
    intro weak p hp
    by_contra traced
    refine weak.irrefl p hp ?_
    change d.userLess p p = true
    rw [userLess,if_pos (Int.not_lt.mp traced)]
  suffices tagged : (∀ p ∈ s, p.tracerpid < 0) → (d.Weak .HeadingUser s ↔ ∀ p ∈ s, ∀ q ∈ s, ∀ r ∈ s,
      p.uid = q.uid → r.uid ≠ p.uid → d.userKey r.uid = d.userKey p.uid → ¬ d.processKey p < d.processKey q) by
    constructor
    · intro weak
      exact ⟨free_of_weak weak,(tagged (free_of_weak weak)).mp weak⟩
    · rintro ⟨free,level⟩
      exact (tagged free).mpr level
  intro free
  have tagged : d.Weak .HeadingUser s ↔
      StrictWeakOn (Tagged Process.uid (fun t u => d.userKey t < d.userKey u) d.processKey) s := by
    refine strictWeakOn_congr ?_
    intro p hp q hq
    change d.userLess p q = true ↔ _
    rw [Tagged]
    split
    · rename_i same
      exact d.userLess_same (free p hp) (free q hq) same
    · rename_i differ
      exact d.userLess_differ (free p hp) (free q hq) differ
  have users : StrictWeakOn (fun t u => t ≠ u ∧ d.userKey t < d.userKey u) (Process.uid '' s) := by
    refine (strictWeakOn_congr ?_).mp (strictWeakOn_key d.userKey (Process.uid '' s))
    intro t _ u _
    constructor
    · intro before
      refine ⟨?_,before⟩
      rintro rfl
      exact lt_irrefl _ before
    · exact And.right
  rw [tagged,strictWeakOn_tagged,and_iff_right users]
  constructor
  · intro level p hp q hq r hr same other key
    exact level p hp q hq r hr same other (key ▸ lt_irrefl _) (key ▸ lt_irrefl _)
  · intro level p hp q hq r hr same other notBefore notBehind
    exact level p hp q hq r hr same other (le_antisymm (not_lt.mp notBefore) (not_lt.mp notBehind))

/-- Where a scheduler stands. -/
def schedulerRank : Scheduler → Nat
  | .RoundRobin => 0
  | .Fifo => 0
  | .Other => 1
  | .Batch => 2
  | .SchedulerIdle => 3
  | .Interactive => 3

def niceKey (process : Process) : Int ×ₗ Int := toLex (process.niceLevel,process.pid)

theorem niceLess_iff (left right : Process) : niceLess left right = true ↔ niceKey left < niceKey right := by
  simp only [niceLess,niceKey,Prod.Lex.toLex_lt_toLex]
  by_cases level : left.niceLevel = right.niceLevel
  · simp [level]
  · simp [level]

theorem nicenessLess_same (same : left.scheduler = right.scheduler) :
    nicenessLess left right = true ↔ niceKey left < niceKey right := by
  rw [nicenessLess,if_neg (fun differ => differ same)]
  exact niceLess_iff left right

theorem nicenessLess_lower (lower : schedulerRank left.scheduler < schedulerRank right.scheduler) :
    nicenessLess left right = true := by
  revert lower
  cases leftScheduler : left.scheduler <;> cases rightScheduler : right.scheduler <;>
    simp [nicenessLess,schedulerRank,realTime,leftScheduler,rightScheduler]

theorem nicenessLess_higher (higher : schedulerRank right.scheduler < schedulerRank left.scheduler) :
    nicenessLess left right = true ↔ right.scheduler = .Batch ∧ niceKey left < niceKey right := by
  rw [← niceLess_iff]
  revert higher
  cases leftScheduler : left.scheduler <;> cases rightScheduler : right.scheduler <;>
    simp [nicenessLess,schedulerRank,realTime,leftScheduler,rightScheduler]

theorem nicenessLess_level (level : schedulerRank left.scheduler = schedulerRank right.scheduler)
    (differ : left.scheduler ≠ right.scheduler) :
    nicenessLess left right = true ↔ realTime left.scheduler = true ∨ niceKey left < niceKey right := by
  rw [← niceLess_iff]
  revert level differ
  cases leftScheduler : left.scheduler <;> cases rightScheduler : right.scheduler <;>
    simp [nicenessLess,schedulerRank,realTime,leftScheduler,rightScheduler]

theorem niceness_weak_iff (d : ProcessModel) (s : Set Process) :
    d.Weak .HeadingNiceness s ↔ (∀ p ∈ s, ∀ q ∈ s, p.scheduler = .RoundRobin → q.scheduler ≠ .Fifo) ∧
      ∀ p ∈ s, ∀ q ∈ s, p.scheduler = .SchedulerIdle ∨ p.scheduler = .Interactive → q.scheduler = .Batch →
        ¬ niceKey p < niceKey q := by
  constructor
  · intro weak
    refine ⟨?_,?_⟩
    · intro p hp q hq roundRobin fifo
      refine weak.asymm p hp q hq ?_ ?_
      · change nicenessLess p q = true
        rw [nicenessLess_level (by rw [roundRobin,fifo]; rfl) (by rw [roundRobin,fifo]; decide)]
        exact .inl (by rw [roundRobin]; rfl)
      · change nicenessLess q p = true
        rw [nicenessLess_level (by rw [roundRobin,fifo]; rfl) (by rw [roundRobin,fifo]; decide)]
        exact .inl (by rw [fifo]; rfl)
    · intro p hp q hq idle batch before
      have lower : schedulerRank q.scheduler < schedulerRank p.scheduler := by
        rcases idle with idle | interactive
        · rw [idle,batch]
          decide
        · rw [interactive,batch]
          decide
      exact weak.asymm q hq p hp (nicenessLess_lower lower) ((nicenessLess_higher lower).mpr ⟨batch,before⟩)
  · rintro ⟨realTimes,batches⟩
    refine (strictWeakOn_congr ?_).mp
      (strictWeakOn_key (fun process => toLex (schedulerRank process.scheduler,niceKey process)) s)
    intro p hp q hq
    change _ ↔ nicenessLess p q = true
    rw [Prod.Lex.toLex_lt_toLex]
    rcases lt_trichotomy (schedulerRank p.scheduler) (schedulerRank q.scheduler) with lower | level | higher
    · simp [lower,nicenessLess_lower lower]
    · rw [or_iff_right (by rw [level]; exact lt_irrefl _),and_iff_right level]
      by_cases same : p.scheduler = q.scheduler
      · exact (nicenessLess_same same).symm
      · have plain : realTime p.scheduler = false := by
          have first := realTimes p hp q hq
          have second := realTimes q hq p hp
          revert level same first second
          cases p.scheduler <;> cases q.scheduler <;> simp [schedulerRank,realTime]
        rw [nicenessLess_level level same,plain]
        simp
    · have behind : ¬ nicenessLess p q = true := by
        rw [nicenessLess_higher higher]
        rintro ⟨batch,before⟩
        refine batches p hp q hq ?_ batch before
        rw [batch] at higher
        revert higher
        cases p.scheduler <;> simp [schedulerRank]
      simp [behind,Nat.lt_asymm higher,Nat.ne_of_gt higher]

theorem ttysLess_nil {t : List Nat} (other : t ≠ []) : ttysLess t [] = true ∧ ttysLess [] t = false := by
  constructor
  · rw [ttysLess,if_neg other,if_pos rfl]
  · rw [ttysLess,if_pos rfl]

theorem ttysLess_captures {t u : List Nat} {k l : List Nat ×ₗ Nat} (first : t ≠ []) (second : u ≠ [])
    (left : captures t = some k) (right : captures u = some l) : ttysLess t u = true ↔ k < l := by
  rw [ttysLess,if_neg first,if_neg second]
  simp only [left,right]
  rw [Prod.Lex.lt_iff]
  rcases lt_trichotomy (ofLex k).1 (ofLex l).1 with lower | same | higher
  · simp [lower]
  · simp [same]
  · simp [higher,lt_asymm higher,ne_of_gt higher]

theorem ttysLess_plain {t u : List Nat} (first : t ≠ []) (second : u ≠ [])
    (plain : captures t = none ∨ captures u = none) : ttysLess t u = true ↔ t < u := by
  rw [ttysLess,if_neg first,if_neg second]
  rcases plain with left | right
  · simp [left]
  · cases captures t <;> simp [right]

/-- Around a name that is compared as a text, the numbered ones have to lie as their texts do. -/
def TextsAgree (ttys : Set (List Nat)) : Prop :=
  ∀ t ∈ ttys, ∀ u ∈ ttys, ∀ v ∈ ttys, t ≠ [] → t < u → u < v → captures u = none →
    ∀ k l, captures t = some k → captures v = some l → k < l

theorem ttysLess_asymm {t u : List Nat} (differ : t ≠ u) (before : ttysLess t u = true) : ¬ ttysLess u t = true := by
  by_cases first : t = []
  · subst first
    exact absurd before (by simp [(ttysLess_nil differ.symm).2])
  · by_cases second : u = []
    · subst second
      simp [(ttysLess_nil first).2]
    · cases left : captures t with
      | none =>
        rw [ttysLess_plain first second (.inl left)] at before
        rw [ttysLess_plain second first (.inr left)]
        exact lt_asymm before
      | some k =>
        cases right : captures u with
        | none =>
          rw [ttysLess_plain first second (.inr right)] at before
          rw [ttysLess_plain second first (.inl right)]
          exact lt_asymm before
        | some l =>
          rw [ttysLess_captures first second left right] at before
          rw [ttysLess_captures second first right left]
          exact lt_asymm before

theorem ttysLess_between {ttys : Set (List Nat)} (agree : TextsAgree ttys) {t u v : List Nat} (ht : t ∈ ttys)
    (hu : u ∈ ttys) (hv : v ∈ ttys) (first : t ≠ []) (second : u ≠ []) (third : v ≠ []) (left : t ≠ u) (right : u ≠ v)
    (before : ttysLess t v = true) : ttysLess t u = true ∨ ttysLess u v = true := by
  have turned : ¬ t < u → u < t := fun behind => lt_of_le_of_ne (not_lt.mp behind) left.symm
  have turned' : ¬ u < v → v < u := fun behind => lt_of_le_of_ne (not_lt.mp behind) right.symm
  cases ct : captures t with
  | none =>
    rw [ttysLess_plain first third (.inl ct)] at before
    rw [ttysLess_plain first second (.inl ct)]
    by_cases lower : t < u
    · exact .inl lower
    · right
      cases cu : captures u with
      | none => exact (ttysLess_plain second third (.inl cu)).mpr ((turned lower).trans before)
      | some l =>
        cases cv : captures v with
        | none => exact (ttysLess_plain second third (.inr cv)).mpr ((turned lower).trans before)
        | some m =>
          exact (ttysLess_captures second third cu cv).mpr
            (agree u hu t ht v hv second (turned lower) before ct l m cu cv)
  | some k =>
    cases cv : captures v with
    | none =>
      rw [ttysLess_plain first third (.inr cv)] at before
      rw [ttysLess_plain second third (.inr cv)]
      by_cases lower : u < v
      · exact .inr lower
      · left
        cases cu : captures u with
        | none => exact (ttysLess_plain first second (.inr cu)).mpr (before.trans (turned' lower))
        | some l =>
          exact (ttysLess_captures first second ct cu).mpr
            (agree t ht v hv u hu first before (turned' lower) cv k l ct cu)
    | some m =>
      rw [ttysLess_captures first third ct cv] at before
      cases cu : captures u with
      | none =>
        rw [ttysLess_plain first second (.inr cu),ttysLess_plain second third (.inl cu)]
        by_contra neither
        rw [not_or] at neither
        exact lt_asymm before
          (agree v hv u hu t ht third (turned' neither.2) (turned neither.1) cu m k cv ct)
      | some l =>
        rw [ttysLess_captures first second ct cu,ttysLess_captures second third cu cv]
        rcases lt_or_ge k l with lower | upper
        · exact .inl lower
        · exact .inr (lt_of_le_of_lt upper before)

theorem ttys_weak_iff (ttys : Set (List Nat)) :
    StrictWeakOn (fun t u => t ≠ u ∧ ttysLess t u = true) ttys ↔ TextsAgree ttys := by
  rw [strictWeakOn_iff]
  constructor
  · rintro ⟨_,between⟩ t ht u hu v hv first lower upper plain k l left right
    have second : u ≠ [] := by
      rintro rfl
      exact absurd lower (List.not_lt_nil t)
    have third : v ≠ [] := by
      rintro rfl
      exact absurd upper (List.not_lt_nil u)
    -- the text in the middle lies behind the first name and in front of the last one
    rcases between t ht v hv u hu ⟨ne_of_lt lower,(ttysLess_plain first second (.inr plain)).mpr lower⟩ with
      before | back
    · exact (ttysLess_captures first third left right).mp before.2
    · exact absurd ((ttysLess_plain third second (.inr plain)).mp back.2) (lt_asymm upper)
  · intro agree
    refine ⟨fun t _ u _ before back => ttysLess_asymm before.1 before.2 back.2,?_⟩
    rintro t ht u hu v hv ⟨differ,before⟩
    by_cases left : t = u
    · exact .inr ⟨left ▸ differ,left ▸ before⟩
    by_cases right : u = v
    · exact .inl ⟨right ▸ differ,right ▸ before⟩
    have first : t ≠ [] := by
      rintro rfl
      exact absurd before (by simp [(ttysLess_nil differ.symm).2])
    by_cases second : u = []
    · subst second
      exact .inl ⟨left,(ttysLess_nil left).1⟩
    by_cases third : v = []
    · subst third
      exact .inr ⟨right,(ttysLess_nil right).1⟩
    rcases ttysLess_between agree ht hu hv first second third left right before with lower | upper
    · exact .inl ⟨left,lower⟩
    · exact .inr ⟨right,upper⟩

theorem ttysLess_level_iff {t u : List Nat} (differ : t ≠ u) : ¬ ttysLess t u = true ∧ ¬ ttysLess u t = true ↔
    t ≠ [] ∧ u ≠ [] ∧ captures t ≠ none ∧ captures t = captures u := by
  by_cases first : t = []
  · subst first
    simp [(ttysLess_nil differ.symm).1]
  by_cases second : u = []
  · subst second
    simp [(ttysLess_nil differ).1]
  cases left : captures t with
  | none =>
    rw [ttysLess_plain first second (.inl left),ttysLess_plain second first (.inr left)]
    constructor
    · rintro ⟨behind,before⟩
      exact absurd (le_antisymm (not_lt.mp before) (not_lt.mp behind)) differ
    · rintro ⟨_,_,numbered,_⟩
      exact absurd rfl numbered
  | some k =>
    cases right : captures u with
    | none =>
      rw [ttysLess_plain first second (.inr right),ttysLess_plain second first (.inl right)]
      constructor
      · rintro ⟨behind,before⟩
        exact absurd (le_antisymm (not_lt.mp before) (not_lt.mp behind)) differ
      · rintro ⟨_,_,_,same⟩
        exact absurd same nofun
    | some l =>
      rw [ttysLess_captures first second left right,ttysLess_captures second first right left]
      constructor
      · rintro ⟨behind,before⟩
        exact ⟨first,second,nofun,congrArg some (le_antisymm (not_lt.mp before) (not_lt.mp behind))⟩
      · rintro ⟨_,_,_,same⟩
        obtain rfl := Option.some.inj same
        exact ⟨lt_irrefl k,lt_irrefl k⟩

theorem tty_weak_iff (d : ProcessModel) (s : Set Process) :
    d.Weak .HeadingTty s ↔ TextsAgree (Process.tty '' s) ∧ ∀ p ∈ s, ∀ q ∈ s, ∀ r ∈ s, p.tty = q.tty → p.tty ≠ r.tty →
      p.tty ≠ [] → r.tty ≠ [] → captures p.tty ≠ none → captures p.tty = captures r.tty → ¬ p.pid < q.pid := by
  have tagged : d.Weak .HeadingTty s ↔
      StrictWeakOn (Tagged Process.tty (fun t u => ttysLess t u = true) Process.pid) s := by
    refine strictWeakOn_congr ?_
    intro p _ q _
    change ttyLess p q = true ↔ _
    rw [ttyLess,Tagged]
    split
    · exact decide_eq_true_iff
    · exact Iff.rfl
  rw [tagged,strictWeakOn_tagged,ttys_weak_iff]
  refine and_congr_right fun _ => ?_
  constructor
  · intro level p hp q hq r hr same differ first second numbered equal
    obtain ⟨notBefore,notBehind⟩ := (ttysLess_level_iff differ).mpr ⟨first,second,numbered,equal⟩
    exact level p hp q hq r hr same differ.symm notBefore notBehind
  · intro level p hp q hq r hr same differ notBefore notBehind
    obtain ⟨first,second,numbered,equal⟩ := (ttysLess_level_iff differ.symm).mp ⟨notBefore,notBehind⟩
    exact level p hp q hq r hr same differ.symm first second numbered equal

/-- What the column asks of the processes. -/
def Sortable (d : ProcessModel) (s : Set Process) : Heading → Prop
  | .HeadingUser => (∀ p ∈ s, p.tracerpid < 0) ∧ ∀ p ∈ s, ∀ q ∈ s, ∀ r ∈ s, p.uid = q.uid → r.uid ≠ p.uid →
      d.userKey r.uid = d.userKey p.uid → ¬ d.processKey p < d.processKey q
  | .HeadingNiceness => (∀ p ∈ s, ∀ q ∈ s, p.scheduler = .RoundRobin → q.scheduler ≠ .Fifo) ∧
      ∀ p ∈ s, ∀ q ∈ s, p.scheduler = .SchedulerIdle ∨ p.scheduler = .Interactive → q.scheduler = .Batch →
        ¬ niceKey p < niceKey q
  | .HeadingTty => TextsAgree (Process.tty '' s) ∧ ∀ p ∈ s, ∀ q ∈ s, ∀ r ∈ s, p.tty = q.tty → p.tty ≠ r.tty →
      p.tty ≠ [] → r.tty ≠ [] → captures p.tty ≠ none → captures p.tty = captures r.tty → ¬ p.pid < q.pid
  | _ => True

theorem weak_number (d : ProcessModel) (column : Heading) {κ : Type} [LinearOrder κ] (key : Process → κ)
    (number : ∀ p q, d.lessThan column p q = decide (key q < key p)) (s : Set Process) : d.Weak column s := by
  refine (strictWeakOn_congr ?_).mpr (strictWeakOn_key_gt key s)
  intro p _ q _
  rw [number]
  exact decide_eq_true_iff

theorem lessThan_weak_iff (d : ProcessModel) (column : Heading) (s : Set Process) :
    d.Weak column s ↔ d.Sortable s column := by
  cases column with
  | HeadingUser => exact d.user_weak_iff s
  | HeadingNiceness => exact d.niceness_weak_iff s
  | HeadingTty => exact d.tty_weak_iff s
  | HeadingPid => exact iff_of_true (d.weak_number _ Process.pid (fun _ _ => rfl) s) trivial
  | HeadingCPUUsage => exact iff_of_true (d.weak_number _ d.cpu (fun _ _ => rfl) s) trivial
  | HeadingCPUTime => exact iff_of_true (d.weak_number _ cpuTime (fun _ _ => rfl) s) trivial
  | HeadingIoRead => exact iff_of_true (d.weak_number _ d.ioRead (fun _ _ => rfl) s) trivial
  | HeadingIoWrite => exact iff_of_true (d.weak_number _ d.ioWrite (fun _ _ => rfl) s) trivial
  | HeadingVmSize => exact iff_of_true (d.weak_number _ Process.vmSize (fun _ _ => rfl) s) trivial
  | HeadingMemory => exact iff_of_true (d.weak_number _ memory (fun _ _ => rfl) s) trivial
  | HeadingSharedMemory => exact iff_of_true (d.weak_number _ sharedMemory (fun _ _ => rfl) s) trivial
  | HeadingXMemory => exact iff_of_true (d.weak_number _ Process.pixmapBytes (fun _ _ => rfl) s) trivial

/-- A process of the user 1000 on the first console. -/
def shell : Process where
  pid := 100
  uid := 1000
  tracerpid := -1
  tty := [116,116,121,49]
  userTime := 0
  sysTime := 0
  userUsage := 0
  sysUsage := 0
  totalUserUsage := 0
  totalSysUsage := 0
  niceLevel := 0
  scheduler := .Other
  vmSize := 0
  vmRSS := 0
  vmURSS := -1
  pixmapBytes := 0
  hasManagedGuiWindow := false
  ioCharactersRead := 0
  ioCharactersWritten := 0
  ioReadSyscalls := 0
  ioWriteSyscalls := 0
  ioCharactersActuallyRead := 0
  ioCharactersActuallyWritten := 0
  ioCharactersReadRate := 0
  ioCharactersWrittenRate := 0
  ioReadSyscallsRate := 0
  ioWriteSyscallsRate := 0
  ioCharactersActuallyReadRate := 0
  ioCharactersActuallyWrittenRate := 0

def localModel : ProcessModel := ⟨true,false,false,.ActualBytesRate,1000,fun _ => none⟩

def traced : Process := { shell with tracerpid := 4711 }

/-- A traced process comes before itself, and two processes in real time come before each other. -/
theorem traced_before_itself : ¬ localModel.Weak .HeadingUser {traced} ∧
    ¬ localModel.Weak .HeadingNiceness { p | p.scheduler = .RoundRobin ∨ p.scheduler = .Fifo } := by
  constructor
  · intro weak
    exact weak.irrefl traced rfl (by decide)
  · intro weak
    exact weak.asymm { shell with scheduler := .RoundRobin } (.inl rfl) { shell with scheduler := .Fifo } (.inr rfl)
      (by decide) (by decide)

end ProcessModel

end KdeWorkspace.ProcessOrders
