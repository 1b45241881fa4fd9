import KdeWorkspace.SessionList
import Mathlib.Data.List.DropRight

/-!
The ini files of kdm, as `iniEntry` reads and writes them and `iniMerge` joins two of them.

A string is the list of its bytes, and its end is the byte which ends it. A pointer into a string is what
is left of it from there on. Memory does not run out.
-/
namespace KdeWorkspace.IniFile
open PipeCodec (Bytes)
open SessionList (byte text newline)

def blank (c : UInt8) : Bool := c = byte ' ' || c = 9

/-- `for (; *p == ' ' || *p == '\t'; p++)` -/
def skipBlanks (p : Bytes) : Bytes := p.dropWhile blank

/-- What is left of a segment when the blanks at its end are given up. -/
def stripBlanks (p : Bytes) : Bytes := p.rdropWhile blank

/-- `while (*p++ != '\n')`. Behind the end of the string the loop reads on. -/
def nextLine : Bytes → Option Bytes
  | [] => none
  | c :: p => if c = newline then some p else nextLine p

/-- `for (; *p == *t; t++, p++)`. Two ends are equal, and the loop reads on behind them. -/
def matching : Bytes → Bytes → Option (Bytes × Bytes)
  | [], [] => none
  | [], b :: t => some ([],b :: t)
  | a :: p, [] => some (a :: p,[])
  | a :: p, b :: t => if a = b then matching p t else some (a :: p,b :: t)

/-- What the loop of `iniEntry` makes of the line at which it is. -/
inductive Line
  | empty (p : Bytes)
  | entry (cb : Bytes)
  | other (p : Bytes) (insect : Bool)
deriving DecidableEq

def readLine (section_ key : Bytes) (insect : Bool) (p : Bytes) : Option Line :=
  let p := skipBlanks p
  if p.head? = some newline then some (.empty p.tail)
  else if p.head? = some (byte '[') then
    match matching p.tail section_ with
    | none => none
    | some (p,t) => some (.other p (t.isEmpty && p.head? = some (byte ']')))
  else if insect then
    match matching p key with
    | none => none
    | some (p,t) =>
      let p := skipBlanks p
      if t.isEmpty && p.head? = some (byte '=') then some (.entry (skipBlanks p.tail)) else some (.other p insect)
  else some (.other p insect)

/-- Where the scan is, and behind which lines an entry could be inserted. -/
structure Marks where
  insect : Bool
  secinsert : Option Bytes
  pastinsert : Option Bytes
deriving DecidableEq

def Marks.start : Marks := ⟨false,none,none⟩

def Marks.passed (marks : Marks) (insect : Bool) (p : Bytes) : Marks :=
  if insect then { marks with insect, secinsert := some p } else { marks with insect, pastinsert := some p }

inductive Scan
  | found (cb ce : Bytes)
  | ended (marks : Marks)
deriving DecidableEq

theorem skipBlanks_length (p : Bytes) : (skipBlanks p).length ≤ p.length := (List.dropWhile_sublist _).length_le

theorem nextLine_length {p q : Bytes} (next : nextLine p = some q) : q.length < p.length := by
  induction p with
  | nil => simp [nextLine] at next
  | cons c p ih =>
    simp only [nextLine] at next
    split_ifs at next with ends
    · simp at next
      simp [next]
    · have := ih next
      simp
      omega

theorem matching_length {p t p' t' : Bytes} (matched : matching p t = some (p',t')) : p'.length ≤ p.length := by
  fun_induction matching p t with
  | case1 => simp at matched
  | case2 => simp at matched; simp [← matched.1]
  | case3 => simp at matched; simp [← matched.1]
  | case4 p b t ih =>
    have := ih matched
    simp
    omega
  | case5 a p b t differ => simp at matched; simp [← matched.1]

theorem readLine_empty {section_ key p p' : Bytes} {insect : Bool}
    (read : readLine section_ key insect p = some (.empty p')) : skipBlanks p = newline :: p' := by
  dsimp only [readLine] at read
  split at read
  · rename_i first
    obtain ⟨q,whole⟩ : ∃ q, skipBlanks p = newline :: q := by
      cases left : skipBlanks p <;> simp_all
    simp [whole] at read
    rw [whole, read]
  · split at read
    · split at read <;> simp at read
    · split at read
      · split at read
        · simp at read
        · split_ifs at read <;> simp at read
      · simp at read

theorem readLine_other {section_ key p p' : Bytes} {insect insect' : Bool}
    (read : readLine section_ key insect p = some (.other p' insect')) : p'.length ≤ p.length := by
  have shorter := skipBlanks_length p
  dsimp only [readLine] at read
  split at read
  · simp at read
  · split at read
    · split at read
      · simp at read
      · rename_i matched
        simp at read
        have := matching_length matched
        rw [← read.1]
        simp at this
        omega
    · split at read
      · split at read
        · simp at read
        · rename_i q t matched
          have := matching_length matched
          have := skipBlanks_length q
          split_ifs at read with found
          · simp at read
          · simp at read
            rw [← read.1]
            omega
      · simp at read
        rw [← read.1]
        exact shorter

/-- The loop of `iniEntry`. -/
def scan (section_ key : Bytes) (marks : Marks) (p : Bytes) : Option Scan :=
  if p.isEmpty then some (.ended marks)
  else
    match read : readLine section_ key marks.insect p with
    | none => none
    | some (.empty p') => scan section_ key marks p'
    | some (.entry cb) => (nextLine cb).map (.found cb)
    | some (.other p' insect) =>
      match next : nextLine p' with
      | none => none
      | some q => scan section_ key (marks.passed insect q) q
termination_by p.length
decreasing_by
  · have whole := readLine_empty read
    have shorter := skipBlanks_length p
    rw [whole] at shorter
    simp at shorter
    omega
  · have := readLine_other read
    have := nextLine_length next
    omega

/-- What `Malloc` has given, and what has been written to it. -/
structure Buffer where
  size : Nat
  bytes : Bytes
deriving DecidableEq

def Buffer.string (buffer : Buffer) : Bytes := buffer.bytes.dropLast

/-- What is written in front of the value. -/
def heading (section_ key : Bytes) (ll sl kl : Nat) : Bytes :=
  if kl ≠ 0 then
    (if sl ≠ 0 then
      (if ll ≠ 0 then [newline] else [])++[byte '[']++section_.take (sl-3)++[byte ']']++[newline]
    else [])++key.take (kl-1)++[byte '=']
  else []

/-- What `iniEntry` does at its end, with the lengths it has worked out. -/
def insert (data : Option Bytes) (cb ce section_ key value : Bytes) (len ll sl kl : Nat) : Buffer :=
  let start := data.getD []
  let nlen := len-(cb.length-ce.length)+ll+sl+kl+value.length+1
  { size := nlen+1
    bytes := start.take (start.length-cb.length)++heading section_ key ll sl kl++value++[newline]++
      (if data.isSome then ce.take (len-(start.length-ce.length)) else [])++[0] }

inductive Outcome
  | null
  | value (v : Bytes)
  | rewritten (buffer : Buffer)
deriving DecidableEq

/-- `none` is a string which has been read past its end. -/
def iniEntry (data : Option Bytes) (section_ key : Bytes) (value : Option Bytes) : Option Outcome :=
  let start := data.getD []
  match scan section_ key .start start, value with
  | none, _ => none
  | some (.found cb ce), none => some (.value (stripBlanks (cb.take (cb.length-ce.length-1))))
  | some (.found cb ce), some value =>
    some (.rewritten (insert data cb ce section_ key value (start.length-ce.length+ce.length) 0 0 0))
  | some (.ended _), none => some .null
  | some (.ended marks), some value =>
    match marks.secinsert, marks.pastinsert with
    | some ce, _ => some (.rewritten (insert data ce ce section_ key value start.length 0 0 (key.length+1)))
    | none, some ce =>
      some (.rewritten (insert data ce ce section_ key value start.length 1 (section_.length+3) (key.length+1)))
    | none, none =>
      some (.rewritten (insert data start start section_ key value start.length 0 (section_.length+3) (key.length+1)))

def before (c x : UInt8) : Bool := x ≠ c && x ≠ newline

/-- The bytes in front of a certain one, which has to come before the line ends. -/
def upTo (c : UInt8) (p : Bytes) : Option (Bytes × Bytes) :=
  if (p.dropWhile (before c)).head? = some c then some (p.takeWhile (before c),(p.dropWhile (before c)).tail) else none

/-- What one round of `iniMerge` finds. `bail` is both its end and what it does not understand. -/
inductive Item
  | bail
  | skip (p : Bytes)
  | section_ (name p : Bytes)
  | entry (key value p : Bytes)
deriving DecidableEq

def readItem (p : Bytes) : Item :=
  let p := skipBlanks p
  match p with
  | [] => .bail
  | c :: q =>
    if c = newline then .skip q
    else if c = byte '#' then
      match nextLine q with
      | none => .bail
      | some p => .skip p
    else if c = byte '[' then
      match upTo (byte ']') q with
      | none => .bail
      | some (name,p) => .section_ name p
    else
      match upTo (byte '=') p with
      | none => .bail
      | some (key,p) =>
        let p := skipBlanks p
        .entry (stripBlanks key) (stripBlanks (p.takeWhile (· ≠ newline))) (p.dropWhile (· ≠ newline))

theorem upTo_length {c : UInt8} {p name q : Bytes} (read : upTo c p = some (name,q)) : q.length < p.length := by
  have shorter : (p.dropWhile (before c)).length ≤ p.length := (List.dropWhile_sublist _).length_le
  simp only [upTo] at read
  split_ifs at read with found
  cases rest : p.dropWhile (before c) with
  | nil => simp [rest] at found
  | cons d r =>
    rw [rest] at read shorter
    simp at read shorter
    rw [← read.2]
    omega

theorem readItem_length {p q : Bytes} (read : readItem p = .skip q ∨ (∃ name, readItem p = .section_ name q) ∨
    ∃ key value, readItem p = .entry key value q) : q.length < p.length := by
  have shorter := skipBlanks_length p
  unfold readItem at read
  dsimp only at read
  cases left : skipBlanks p with
  | nil => simp [left] at read
  | cons c r =>
    rw [left] at read shorter
    simp only [List.length_cons] at shorter
    dsimp only at read
    split_ifs at read with ends comment header
    · simp at read
      rw [← read]
      omega
    · cases next : nextLine r with
      | none => simp [next] at read
      | some s =>
        simp [next] at read
        have := nextLine_length next
        rw [← read]
        omega
    · cases name : upTo (byte ']') r with
      | none => simp [name] at read
      | some s =>
        simp [name] at read
        have := upTo_length name
        rw [← read]
        omega
    · cases key : upTo (byte '=') (c :: r) with
      | none => simp [key] at read
      | some s =>
        simp [key] at read
        have := upTo_length key
        have := skipBlanks_length s.2
        have : ((skipBlanks s.2).dropWhile (· ≠ newline)).length ≤ (skipBlanks s.2).length :=
          (List.dropWhile_sublist _).length_le
        simp at this
        rw [← read]
        simp at *
        omega

/-- The loop of `iniMerge`. -/
def iniMergeFrom (data : Option Bytes) (section_ : Option Bytes) (p : Bytes) : Option (Option Bytes) :=
  match read : readItem p with
  | .bail => some data
  | .skip q => iniMergeFrom data section_ q
  | .section_ name q => iniMergeFrom data (some name) q
  | .entry key value q =>
    match section_ with
    | none => iniMergeFrom data section_ q
    | some name =>
      match iniEntry data name key (some value) with
      | none => none
      | some .null => iniMergeFrom none section_ q
      | some (.value v) => iniMergeFrom (some v) section_ q
      | some (.rewritten buffer) => iniMergeFrom (some buffer.string) section_ q
termination_by p.length
decreasing_by
  all_goals exact readItem_length (by simp [read])

def iniMerge (data newdata : Option Bytes) : Option (Option Bytes) :=
  match newdata with
  | none => some data
  | some newdata => iniMergeFrom data none newdata

end KdeWorkspace.IniFile
