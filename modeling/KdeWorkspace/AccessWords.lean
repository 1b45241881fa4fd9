import KdeWorkspace.AccessGrammar
import KdeWorkspace.Loops

/-!
How KDM reads the words of an access file (`readWord`, called by `readAccessFile`).

The words are put together in the buffer of the file and end with a NUL there, which
may stand on the line end that was read last and put back: the next call takes it for one.
So a call takes from the text what `nextWord` takes from its tokens, and writes nothing
behind what has been read (`readWord_delivers`); the lines that are read are those of the
tokens as they are taken (`readLines_lines`), which are the grammar's just when nothing is
broken (`access_words_iff`).
-/
namespace KdeWorkspace.AccessWords
open AccessGrammar Loops List Option Function Bool
open Nat (succ_le_succ le_succ_of_le)

/-- The bytes of a file, where the next one is read, and up to where they have been read so far. -/
structure File where
  buf : Nat → Char
  eof : Nat
  cur : Nat
  consumed : Nat

namespace File

def ofText (text : List Char) : File := ⟨fun i => text.getD i '\x00',text.length,0,0⟩

def write (file : File) (i : Nat) (c : Char) : File := {file with buf := Function.update file.buf i c}
def advance (file : File) : File := {file with cur := file.cur+1,consumed := max file.consumed (file.cur+1)}
def back (file : File) : File := {file with cur := file.cur-1}

/-- The word that ends at `wordp`, with its length. -/
def retw (file : File) (wordBuffer wordp : Nat) : File × Option (Nat × Nat) :=
  (file.write wordp '\x00',some (wordBuffer,wordp-wordBuffer))

def doeow (file : File) (wordBuffer wordp : Nat) : File × Option (Nat × Nat) :=
  if wordp = wordBuffer then (file,none) else file.retw wordBuffer wordp

/-- The loop through a comment; whether its line has an end. -/
def comment : Nat → File → Option (File × Bool)
  | 0,_ => none
  | fuel+1,file =>
    if file.cur = file.eof then some (file,false)
    else if file.buf file.cur = '\n' then some (file.advance,true) else comment fuel file.advance

/-- What is returned at the end of a line, if the line is not skipped. -/
def atEol (EOFatEOL quoted : Bool) (file : File) (wordBuffer wordp : Nat) : Option (File × Option (Nat × Nat)) :=
  if EOFatEOL ∧ ¬ quoted then some (file.back.doeow wordBuffer wordp)
  else if wordp ≠ wordBuffer then some (file.back.retw wordBuffer wordp)
  else none

/-- The loop of `readWord`, from `qloop` on. -/
def qloop (EOFatEOL : Bool) : Nat → File → Nat → Nat → Bool → Option (File × Option (Nat × Nat))
  | 0,_,_,_,_ => none
  | fuel+1,file,wordBuffer,wordp,quoted =>
    if file.cur = file.eof then some (file.doeow wordBuffer wordp)
    else
      let c := file.buf file.cur
      let file := file.advance
      let rest (file : File) := qloop EOFatEOL fuel file file.cur file.cur false
      if c = '#' ∧ ¬ quoted then do
        let (file,found) ← comment fuel file
        if found then (file.atEol EOFatEOL quoted wordBuffer wordp).or (rest file) else some (file.doeow wordBuffer wordp)
      else if c = '\x00' ∨ c = '\n' then (file.atEol EOFatEOL quoted wordBuffer wordp).or (rest file)
      else if c = ' ' ∨ c = '\t' then if wordp ≠ wordBuffer then some (file.retw wordBuffer wordp) else rest file
      else if c = '\\' ∧ ¬ quoted then qloop EOFatEOL fuel file wordBuffer wordp true
      else qloop EOFatEOL fuel (file.write wordp c) wordBuffer (wordp+1) false

/-- `readWord`: the place of the word and its length, or nothing. -/
def readWord (EOFatEOL : Bool) (file : File) : Option (File × Option (Nat × Nat)) :=
  qloop EOFatEOL (file.eof-file.cur+1) file file.cur file.cur false

def slice (file : File) (start len : Nat) : List Char := (List.range' start len).map file.buf

/-- The words that are read until the line ends. -/
def words : Nat → File → Option (File × List (List Char))
  | 0,_ => none
  | fuel+1,file => do
    match ← file.readWord true with
    | (file,none) => some (file,[])
    | (file,some (start,len)) => do
      let (file',ws) ← words fuel file
      some (file',file.slice start len :: ws)

/-- The words behind `LISTEN`, where the first one is asked for apart. -/
def listen (fuel : Nat) (file : File) : Option (File × List (List Char)) := do
  match ← file.readWord true with
  | (file,none) => words fuel file
  | (file,some (start,len)) => do
    let (file',ws) ← words fuel file
    some (file',file.slice start len :: ws)

/-- What is read behind the first word of an entry. -/
def readRest (first : List Char) (fuel : Nat) (file : File) : Option (File × List (List Char)) :=
  if first = "LISTEN".toList then listen fuel file else words fuel file

/-- The loop of `readAccessFile`, with what is read for each entry. -/
def readLines : Nat → File → Option (File × List (List (List Char)))
  | 0,_ => none
  | fuel+1,file => do
    match ← file.readWord false with
    | (file,none) => some (file,[])
    | (file,some (start,len)) => do
      let first := file.slice start len
      let (file,ws) ← readRest first fuel file
      let (file,ls) ← readLines fuel file
      some (file,(first :: ws) :: ls)

end File

def readAccessFile (text : List Char) : Option (List (List (List Char))) :=
  (File.readLines (text.length+1) (.ofText text)).map Prod.snd

def nextWord (EOFatEOL : Bool) : List Token → List Char → Option (List Char) × List Token
  | [],word => (if word = [] then none else some word,[])
  | .char c :: rest,word => nextWord EOFatEOL rest (word ++ [c])
  | .blank :: rest,word => if word = [] then nextWord EOFatEOL rest [] else (some word,rest)
  | .eol :: rest,word =>
    if word = [] then if EOFatEOL then (none,.eol :: rest) else nextWord EOFatEOL rest [] else (some word,.eol :: rest)

namespace File
variable {file file' : File} {i start len : Nat} {c : Char}

/-- What has not been read. -/
def unread (file : File) : List Char := file.slice file.cur (file.eof-file.cur)

def tokens (file : File) : List Token := taken false (items .plain file.unread)

theorem unread_cons (more : file.cur < file.eof) : file.unread = file.buf file.cur :: file.advance.unread := by
  obtain ⟨n,size⟩ : ∃ n, file.eof-file.cur = n+1 := ⟨file.eof-file.cur-1,by omega⟩
  have less : file.eof-(file.cur+1) = n := by omega
  simp [unread,slice,advance,size,less,range'_succ]

theorem unread_nil (ended : file.cur = file.eof) : file.unread = [] := by
  simp [unread,slice,ended]

theorem slice_write (file : File) (c : Char) (outside : i < start ∨ start+len ≤ i) :
    (file.write i c).slice start len = file.slice start len := by
  refine map_congr_left fun j member => ?_
  have bounds := mem_range'_1.mp member
  exact update_of_ne (by omega) _ _

theorem slice_succ : (file.write (start+len) c).slice start (len+1) = file.slice start len ++ [c] := by
  rw [slice,range'_concat,map_append]
  have same := slice_write file c (show start+len < start ∨ start+len ≤ start+len from .inr (Nat.le_refl _))
  rw [← same]
  simp [slice,write]

theorem unread_congr (cur : file'.cur = file.cur) (eof : file'.eof = file.eof)
    (same : ∀ i, file.cur ≤ i → i < file.eof → file'.buf i = file.buf i) : file'.unread = file.unread := by
  rw [unread,unread,slice,slice,cur,eof]
  refine map_congr_left fun i member => ?_
  have bounds := mem_range'_1.mp member
  exact same i bounds.1 (by omega)

theorem unread_write (outside : i < file.cur ∨ file.eof ≤ i) : (file.write i c).unread = file.unread :=
  unread_congr rfl rfl fun j first last => update_of_ne (by omega) _ _

theorem unread_back (some : 0 < file.cur) (inside : file.cur ≤ file.eof) :
    file.back.unread = file.buf (file.cur-1) :: file.unread := by
  have more : file.back.cur < file.back.eof := by
    show file.cur-1 < file.eof
    omega
  have again : file.back.advance.unread = file.unread := unread_congr (Nat.sub_add_cancel some) rfl fun _ _ _ => rfl
  rw [unread_cons more,again]
  rfl

theorem items_eol {rest : List Char} (ends : IsEol c) : items .plain (c :: rest) = .eol :: items .plain rest := by
  rcases ends with rfl | rfl <;> simp [items,IsEol]

theorem tokens_back (file : File) (some : 0 < file.cur) (inside : file.cur ≤ file.eof) (ends : IsEol (file.buf (file.cur-1))) :
    file.back.tokens = .eol :: file.tokens := by
  rw [tokens,unread_back some inside,items_eol ends,taken,tokens]

theorem tokens_back_write (some : 0 < file.cur) (inside : file.cur ≤ file.eof) (ends : IsEol (file.buf (file.cur-1))) (before : i < file.cur) :
    (file.back.write i '\x00').tokens = .eol :: file.tokens := by
  have again : (file.write i '\x00').tokens = file.tokens := by
    rw [tokens,unread_write (.inl before),tokens]
  rw [← again]
  refine tokens_back (file.write i '\x00') some inside ?_
  by_cases here : file.cur-1 = i
  · simp [write,here,IsEol]
  · simpa [write,here] using ends

/-- What a call does, that has put a word together from the tokens before. -/
structure Delivers (EOFatEOL : Bool) (file : File) (tokens : List Token) (word : List Char) (file' : File) (r : Option (Nat × Nat)) : Prop where
  eof : file'.eof = file.eof
  bounded : file'.cur ≤ file.eof
  behind : file'.cur ≤ file'.consumed
  onward : file.consumed ≤ file'.consumed
  kept : ∀ i, file'.consumed ≤ i → i < file.eof → file'.buf i = file.buf i
  result : (r.map fun place => file'.slice place.1 place.2,file'.tokens) = nextWord EOFatEOL tokens word

variable {EOFatEOL : Bool} {tokens : List Token} {word : List Char} {r : Option (Nat × Nat)} {wordBuffer wordp : Nat}

theorem Delivers.of_later {file₁ : File} {tokens₁ : List Token} {word₁ : List Char}
    (later : Delivers EOFatEOL file₁ tokens₁ word₁ file' r) (eof : file₁.eof = file.eof) (onward : file.consumed ≤ file₁.consumed)
    (kept : ∀ i, file₁.consumed ≤ i → file₁.buf i = file.buf i)
    (same : nextWord EOFatEOL tokens word = nextWord EOFatEOL tokens₁ word₁) :
    Delivers EOFatEOL file tokens word file' r := by
  refine ⟨later.eof.trans eof,eof ▸ later.bounded,later.behind,Nat.le_trans onward later.onward,fun i first last => ?_,same ▸ later.result⟩
  exact (later.kept i first (eof ▸ last)).trans (kept i (Nat.le_trans later.onward first))

theorem retw_delivers (inside : file.cur ≤ file.eof) (behind : file.cur ≤ file.consumed) (order : wordBuffer ≤ wordp)
    (written : wordp < file.consumed ∨ wordp = file.eof)
    (result : (some (file.slice wordBuffer (wordp-wordBuffer)),(file.write wordp '\x00').tokens) = nextWord EOFatEOL tokens word) :
    Delivers EOFatEOL file tokens word (file.retw wordBuffer wordp).1 (file.retw wordBuffer wordp).2 := by
  refine ⟨rfl,inside,behind,Nat.le_refl _,fun i first last => update_of_ne ?_ _ _,?_⟩
  · have first : file.consumed ≤ i := first
    omega
  · rw [← result,← slice_write file '\x00' (show wordp < wordBuffer ∨ wordBuffer+(wordp-wordBuffer) ≤ wordp by omega)]
    rfl

theorem still_delivers (inside : file.cur ≤ file.eof) (behind : file.cur ≤ file.consumed)
    (result : (none,file.tokens) = nextWord EOFatEOL tokens word) : Delivers EOFatEOL file tokens word file none :=
  ⟨rfl,inside,behind,Nat.le_refl _,fun _ _ _ => rfl,result⟩

theorem slice_nil_iff : file.slice wordBuffer (wordp-wordBuffer) = [] ↔ wordp ≤ wordBuffer := by
  simp [slice]
  omega

theorem atEol_delivers (EOFatEOL quoted : Bool) (some : 0 < file.cur) (inside : file.cur ≤ file.eof) (behind : file.cur ≤ file.consumed)
    (ends : IsEol (file.buf (file.cur-1))) (order : wordBuffer ≤ wordp) (before : wordp < file.cur)
    (read : tokens = taken (decide (wordp ≠ wordBuffer)) ((if quoted then .joined else .eol) :: items .plain file.unread)) :
    (∃ file' r, file.atEol EOFatEOL quoted wordBuffer wordp = .some (file',r) ∧
      Delivers EOFatEOL file tokens (file.slice wordBuffer (wordp-wordBuffer)) file' r) ∨
    file.atEol EOFatEOL quoted wordBuffer wordp = none ∧ wordp = wordBuffer ∧
      nextWord EOFatEOL tokens [] = nextWord EOFatEOL file.tokens [] := by
  have returned : file.back.slice wordBuffer (wordp-wordBuffer) = file.slice wordBuffer (wordp-wordBuffer) := rfl
  have inside' : file.back.cur ≤ file.back.eof := Nat.le_trans (Nat.sub_le _ _) inside
  have behind' : file.back.cur ≤ file.back.consumed := Nat.le_trans (Nat.sub_le _ _) behind
  have written : wordp < file.back.consumed ∨ wordp = file.back.eof := .inl (Nat.lt_of_lt_of_le before behind)
  by_cases empty : wordp = wordBuffer
  · have nothing : file.slice wordBuffer (wordp-wordBuffer) = [] := slice_nil_iff.mpr (Nat.le_of_eq empty)
    have outside : decide (wordp ≠ wordBuffer) = false := decide_eq_false (not_not_intro empty)
    rw [outside] at read
    cases quoted with
    | true =>
      -- the line goes on
      refine .inr ⟨by simp [atEol,empty],empty,?_⟩
      rw [read]
      rfl
    | false =>
      have ended : tokens = .eol :: file.tokens := read
      cases EOFatEOL with
      | true =>
        refine .inl ⟨file.back,none,by simp [atEol,doeow,empty],?_⟩
        refine (still_delivers inside' behind' ?_).of_later rfl (Nat.le_refl _) (fun _ _ => rfl) rfl
        rw [tokens_back file some inside ends,ended,nothing]
        rfl
      | false =>
        refine .inr ⟨by simp [atEol,empty],empty,?_⟩
        rw [ended]
        rfl
  · have begun : file.slice wordBuffer (wordp-wordBuffer) ≠ [] := fun none => empty (by have := slice_nil_iff.mp none; omega)
    have cut : tokens = .eol :: file.tokens := by
      rw [read,decide_eq_true empty]
      cases quoted <;> rfl
    refine .inl ⟨_,_,?_,(retw_delivers inside' behind' order written ?_).of_later rfl (Nat.le_refl _) (fun _ _ => rfl) rfl⟩
    · by_cases ended : EOFatEOL ∧ ¬ quoted
      · rw [atEol,if_pos ended,doeow,if_neg empty]
      · rw [atEol,if_neg ended,if_pos empty]
    · rw [returned,tokens_back_write some inside ends before,cut,nextWord,if_neg begun]

theorem taken_nil (inside : Bool) : taken inside [] = [] := by
  cases inside <;> rfl

theorem doeow_delivers (atEof : file.cur = file.eof) (behind : file.cur ≤ file.consumed) (order : wordBuffer ≤ wordp)
    (before : wordp ≤ file.cur) : Delivers EOFatEOL file [] (file.slice wordBuffer (wordp-wordBuffer))
      (file.doeow wordBuffer wordp).1 (file.doeow wordBuffer wordp).2 := by
  have nothing (file : File) (here : file.cur = file.eof) : file.tokens = [] := by
    rw [tokens,unread_nil here]
    rfl
  by_cases empty : wordp = wordBuffer
  · rw [doeow,if_pos empty]
    refine still_delivers (Nat.le_of_eq atEof) behind ?_
    rw [nothing file atEof,slice_nil_iff.mpr (Nat.le_of_eq empty)]
    rfl
  · have begun : file.slice wordBuffer (wordp-wordBuffer) ≠ [] := fun none => empty (by have := slice_nil_iff.mp none; omega)
    rw [doeow,if_neg empty]
    refine retw_delivers (Nat.le_of_eq atEof) behind order (by omega) ?_
    rw [nothing (file.write wordp '\x00') atEof,nextWord,if_neg begun]

theorem taken_blank {rest : List Char} (inside quoted : Bool) (blank : IsBlank c) :
    taken inside (items (if quoted then .quoted else .plain) (c :: rest)) = .blank :: taken false (items .plain rest) := by
  rcases blank with rfl | rfl <;> cases quoted <;> cases inside <;> rfl

theorem taken_char {rest : List Char} {quoted : Bool} (inside : Bool) (no_eol : ¬ IsEol c) (no_blank : ¬ IsBlank c)
    (no_hash : ¬ (c = '#' ∧ ¬ quoted = true)) (no_slash : ¬ (c = '\\' ∧ ¬ quoted = true)) :
    taken inside (items (if quoted then .quoted else .plain) (c :: rest)) = .char c :: taken true (items .plain rest) := by
  have item : items (if quoted then .quoted else .plain) (c :: rest) = .char c :: items .plain rest := by
    cases quoted with
    | true => simp [items,no_eol,no_blank]
    | false =>
      have hash : ¬ c = '#' := fun same => no_hash ⟨same,by decide⟩
      have slash : ¬ c = '\\' := fun same => no_slash ⟨same,by decide⟩
      simp [items,no_eol,no_blank,hash,slash]
  rw [item]
  cases inside <;> rfl

theorem comment_skips (fuel : Nat) (inside : file.cur ≤ file.eof) (behind : file.cur ≤ file.consumed) (enough : file.eof-file.cur < fuel) :
    ∃ file' found, comment fuel file = some (file',found) ∧ file'.buf = file.buf ∧ file'.eof = file.eof ∧ file'.cur ≤ file.eof ∧
      file.cur ≤ file'.cur ∧ file'.cur ≤ file'.consumed ∧ file.consumed ≤ file'.consumed ∧
        if found then items .comment file.unread = .eol :: items .plain file'.unread ∧ file.cur < file'.cur ∧ file.buf (file'.cur-1) = '\n'
        else items .comment file.unread = [] ∧ file'.cur = file.eof := by
  induction fuel generalizing file with
  | zero => cases enough
  | succ fuel ih =>
    by_cases atEof : file.cur = file.eof
    · refine ⟨file,false,by simp [comment,atEof],rfl,rfl,inside,Nat.le_refl _,behind,Nat.le_refl _,?_⟩
      simp [unread_nil atEof,items,atEof]
    · have more : file.cur < file.eof := by omega
      have inside' : file.advance.cur ≤ file.advance.eof := more
      have behind' : file.advance.cur ≤ file.advance.consumed := Nat.le_max_right _ _
      have onward : file.consumed ≤ file.advance.consumed := Nat.le_max_left _ _
      rw [unread_cons more]
      by_cases ends : file.buf file.cur = '\n'
      · refine ⟨file.advance,true,by simp [comment,atEof,ends],rfl,rfl,inside',Nat.le_succ _,behind',onward,?_⟩
        simp [items,ends,advance]
      · obtain ⟨file',found,skipped,buf,eof,bounded,later,consumed,onward',what⟩ := ih inside' behind' (by
          show file.eof-(file.cur+1) < fuel
          omega)
        have later : file.cur+1 ≤ file'.cur := later
        refine ⟨file',found,by simp [comment,atEof,ends,skipped],buf,eof,bounded,by omega,consumed,Nat.le_trans onward onward',?_⟩
        cases found with
        | false => exact ⟨by simpa [items,ends] using what.1,what.2⟩
        | true =>
          obtain ⟨behind,_,last⟩ := what
          refine ⟨by simpa [items,ends] using behind,by omega,last⟩

/-- The next character has been read or is the next one to be. -/
structure Sound (file : File) : Prop where
  inside : file.cur ≤ file.eof
  behind : file.cur ≤ file.consumed

theorem Delivers.sound (does : Delivers EOFatEOL file tokens word file' r) : file'.Sound :=
  ⟨does.eof ▸ does.bounded,does.behind⟩

/-- Where a word stands that is being read. -/
structure Begun (file : File) (wordBuffer wordp : Nat) (quoted : Bool) : Prop where
  sound : file.Sound
  order : wordBuffer ≤ wordp
  before : wordp+quoted.toNat ≤ file.cur

theorem Begun.inside {quoted : Bool} (begun : Begun file wordBuffer wordp quoted) : wordp ≤ file.cur :=
  Nat.le_trans (Nat.le_add_right _ _) begun.before

theorem Begun.before_advance {quoted : Bool} (begun : Begun file wordBuffer wordp quoted) : wordp < file.advance.cur :=
  Nat.lt_succ_of_le begun.inside

/-- The loop takes the next word from the tokens, with what it has of it. -/
def Reads (EOFatEOL : Bool) (fuel : Nat) (file : File) (wordBuffer wordp : Nat) (quoted : Bool) : Prop :=
  ∃ file' r, qloop EOFatEOL fuel file wordBuffer wordp quoted = some (file',r) ∧
    Delivers EOFatEOL file (taken (decide (wordp ≠ wordBuffer)) (items (if quoted then .quoted else .plain) file.unread))
      (file.slice wordBuffer (wordp-wordBuffer)) file' r

section
variable {fuel : Nat} {quoted : Bool}
  (reads : ∀ file wordBuffer wordp quoted, Begun file wordBuffer wordp quoted → file.eof-file.cur < fuel →
    Reads EOFatEOL fuel file wordBuffer wordp quoted)

theorem advance_sound (more : file.cur < file.eof) : file.advance.Sound := ⟨more,Nat.le_max_right _ _⟩

theorem advance_onward (file : File) : file.consumed ≤ file.advance.consumed := Nat.le_max_left _ _

theorem advance_enough (more : file.cur < file.eof) (enough : file.eof-file.cur < fuel+1) : file.advance.eof-file.advance.cur < fuel := by
  show file.eof-(file.cur+1) < fuel
  omega

include reads

/-- From `rest` on. -/
theorem restart_delivers (sound : file.Sound) (enough : file.eof-file.cur < fuel) :
    ∃ file' r, qloop EOFatEOL fuel file file.cur file.cur false = some (file',r) ∧ Delivers EOFatEOL file file.tokens [] file' r := by
  have start : Begun file file.cur file.cur false := ⟨sound,Nat.le_refl _,Nat.le_refl _⟩
  simpa [Reads,slice,tokens] using reads file file.cur file.cur false start enough

theorem eol_delivers (quoted : Bool) (sound : file.Sound) (enough : file.eof-file.cur < fuel) (ends : IsEol (file.buf (file.cur-1)))
    (order : wordBuffer ≤ wordp) (before : wordp < file.cur) :
    ∃ file' r, (file.atEol EOFatEOL quoted wordBuffer wordp).or (qloop EOFatEOL fuel file file.cur file.cur false) = some (file',r) ∧
      Delivers EOFatEOL file (taken (decide (wordp ≠ wordBuffer)) ((if quoted then .joined else .eol) :: items .plain file.unread))
        (file.slice wordBuffer (wordp-wordBuffer)) file' r := by
  have positive : 0 < file.cur := Nat.zero_lt_of_lt before
  rcases atEol_delivers EOFatEOL quoted positive sound.inside sound.behind ends order before rfl with
    ⟨file',r,left,does⟩ | ⟨left,empty,same⟩
  · exact ⟨file',r,by rw [left,some_or],does⟩
  · obtain ⟨file',r,goes,does⟩ := restart_delivers reads sound enough
    refine ⟨file',r,by rw [left,none_or,goes],does.of_later rfl (Nat.le_refl _) (fun _ _ => rfl) ?_⟩
    rw [slice_nil_iff.mpr (Nat.le_of_eq empty)]
    exact same

theorem reads_hash (begun : Begun file wordBuffer wordp false) (more : file.cur < file.eof) (enough : file.eof-file.cur < fuel+1)
    (here : file.buf file.cur = '#') : Reads EOFatEOL (fuel+1) file wordBuffer wordp false := by
  have sound' := advance_sound more
  have before : wordp ≤ file.cur := begun.before
  have atEof : ¬ file.cur = file.eof := Nat.ne_of_lt more
  obtain ⟨file₂,found,skipped,buf,eof,bounded,later,behind₂,onward₂,what⟩ :=
    comment_skips fuel sound'.inside sound'.behind (advance_enough more enough)
  have later : file.cur+1 ≤ file₂.cur := later
  have sound₂ : file₂.Sound := ⟨eof ▸ bounded,behind₂⟩
  have onward : file.consumed ≤ file₂.consumed := Nat.le_trans (advance_onward file) onward₂
  have read : items .plain file.unread = items .comment file.advance.unread := by
    rw [unread_cons more]
    simp [items,here]
  have sliced : file₂.slice wordBuffer (wordp-wordBuffer) = file.slice wordBuffer (wordp-wordBuffer) := by
    rw [slice,slice,buf]
    rfl
  have kept (i : Nat) (_ : file₂.consumed ≤ i) : file₂.buf i = file.buf i := congrFun buf i
  rw [Reads]
  simp only [false_eq_true,if_false,read]
  cases found with
  | false =>
    obtain ⟨none_left,over₂⟩ := what
    rw [none_left,taken_nil,← sliced]
    refine ⟨_,_,?_,(doeow_delivers (over₂.trans eof.symm) behind₂ begun.order (by omega)).of_later eof onward kept rfl⟩
    simp [qloop,atEof,here,skipped]
  | true =>
    obtain ⟨left,_,newline⟩ := what
    have ends : IsEol (file₂.buf (file₂.cur-1)) := by
      rw [buf]
      exact .inl newline
    obtain ⟨file',r,performed,does⟩ := eol_delivers reads false sound₂ (by have same : file₂.eof = file.eof := eof; omega) ends
      begun.order (by omega)
    rw [left,← sliced]
    refine ⟨file',r,?_,does.of_later eof onward kept rfl⟩
    simpa [qloop,atEof,here,skipped] using performed

theorem reads_eol (begun : Begun file wordBuffer wordp quoted) (more : file.cur < file.eof) (enough : file.eof-file.cur < fuel+1)
    (ends : IsEol (file.buf file.cur)) : Reads EOFatEOL (fuel+1) file wordBuffer wordp quoted := by
  have before := begun.before_advance
  have read : file.advance.buf (file.advance.cur-1) = file.buf file.cur := by simp [advance]
  have hash : ¬ file.buf file.cur = '#' := by
    rcases ends with same | same <;> rw [same] <;> decide
  obtain ⟨file',r,performed,does⟩ := eol_delivers reads quoted (advance_sound more) (advance_enough more enough) (read ▸ ends)
    begun.order before
  have item : items (if quoted then Mode.quoted else .plain) file.unread =
      (if quoted then .joined else .eol) :: items .plain file.advance.unread := by
    rw [unread_cons more]
    cases quoted with
    | true => simp [items,ends]
    | false => exact items_eol ends
  rw [Reads,item]
  refine ⟨file',r,?_,does.of_later rfl (advance_onward file) (fun _ _ => rfl) rfl⟩
  simpa [qloop,Nat.ne_of_lt more,hash,ends.symm] using performed

theorem reads_blank (begun : Begun file wordBuffer wordp quoted) (more : file.cur < file.eof) (enough : file.eof-file.cur < fuel+1)
    (blank : IsBlank (file.buf file.cur)) : Reads EOFatEOL (fuel+1) file wordBuffer wordp quoted := by
  have sound' := advance_sound more
  have before := begun.before_advance
  have others : ¬ file.buf file.cur = '#' ∧ ¬ file.buf file.cur = '\x00' ∧ ¬ file.buf file.cur = '\n' := by
    rcases blank with same | same <;> rw [same] <;> decide
  have blanks : file.buf file.cur = ' ' ∨ file.buf file.cur = '\t' := blank
  rw [Reads,unread_cons more,taken_blank _ _ blank]
  by_cases empty : wordp = wordBuffer
  · obtain ⟨file',r,performed,does⟩ := restart_delivers reads sound' (advance_enough more enough)
    refine ⟨file',r,?_,does.of_later rfl (advance_onward file) (fun _ _ => rfl) ?_⟩
    · simpa [qloop,Nat.ne_of_lt more,others,blanks,empty] using performed
    · rw [slice_nil_iff.mpr (Nat.le_of_eq empty)]
      rfl
  · have some : file.advance.slice wordBuffer (wordp-wordBuffer) ≠ [] := fun none => empty (by
      have := slice_nil_iff.mp none
      have := begun.order
      omega)
    have returned : Delivers EOFatEOL file.advance (.blank :: file.advance.tokens) (file.advance.slice wordBuffer (wordp-wordBuffer)) _ _ :=
      retw_delivers sound'.inside sound'.behind begun.order (.inl (Nat.lt_of_lt_of_le before sound'.behind))
        (by rw [nextWord,if_neg some,tokens,unread_write (.inl before),tokens])
    refine ⟨_,_,?_,returned.of_later rfl (advance_onward file) (fun _ _ => rfl) rfl⟩
    simp [qloop,Nat.ne_of_lt more,others,blanks,empty]

theorem reads_backslash (begun : Begun file wordBuffer wordp false) (more : file.cur < file.eof) (enough : file.eof-file.cur < fuel+1)
    (here : file.buf file.cur = '\\') : Reads EOFatEOL (fuel+1) file wordBuffer wordp false := by
  have begun' : Begun file.advance wordBuffer wordp true := ⟨advance_sound more,begun.order,succ_le_succ begun.before⟩
  obtain ⟨file',r,performed,does⟩ := reads file.advance wordBuffer wordp true begun' (advance_enough more enough)
  refine ⟨file',r,?_,does.of_later rfl (advance_onward file) (fun _ _ => rfl) ?_⟩
  · simpa [qloop,Nat.ne_of_lt more,here] using performed
  · rw [unread_cons more]
    simp only [here,false_eq_true,if_false,if_true,items]
    rfl

theorem reads_char (begun : Begun file wordBuffer wordp quoted) (more : file.cur < file.eof) (enough : file.eof-file.cur < fuel+1)
    (hash : ¬ (file.buf file.cur = '#' ∧ ¬ quoted = true)) (no_eol : ¬ IsEol (file.buf file.cur)) (no_blank : ¬ IsBlank (file.buf file.cur))
    (slash : ¬ (file.buf file.cur = '\\' ∧ ¬ quoted = true)) : Reads EOFatEOL (fuel+1) file wordBuffer wordp quoted := by
  have sound' := advance_sound more
  have before := begun.before_advance
  have ends : ¬ (file.buf file.cur = '\x00' ∨ file.buf file.cur = '\n') := fun eol => no_eol eol.symm
  have begun' : Begun (file.advance.write wordp (file.buf file.cur)) wordBuffer (wordp+1) false :=
    ⟨⟨sound'.inside,sound'.behind⟩,le_succ_of_le begun.order,before⟩
  obtain ⟨len,length⟩ : ∃ len, wordp = wordBuffer+len := ⟨wordp-wordBuffer,by have := begun.order; omega⟩
  obtain ⟨file',r,performed,does⟩ := reads _ wordBuffer (wordp+1) false begun' (advance_enough more enough)
  rw [Reads,unread_cons more,taken_char _ no_eol no_blank hash slash]
  refine ⟨file',r,?_,does.of_later rfl (advance_onward file) (fun i first => ?_) ?_⟩
  · rw [qloop,if_neg (Nat.ne_of_lt more)]
    simp only [if_neg hash,if_neg ends,if_neg slash,if_neg (show ¬ (_ ∨ _) from no_blank)]
    exact performed
  · have behind : file.advance.cur ≤ i := Nat.le_trans sound'.behind first
    exact update_of_ne (by omega) _ _
  · have longer : decide (wordp+1 ≠ wordBuffer) = true := decide_eq_true (by omega)
    have size : wordp+1-wordBuffer = len+1 := by omega
    have size' : wordp-wordBuffer = len := by omega
    rw [longer,unread_write (.inl before),size,size',length,slice_succ]
    rfl

end

theorem qloop_reads (EOFatEOL : Bool) (fuel : Nat) (file : File) (wordBuffer wordp : Nat) (quoted : Bool)
    (begun : Begun file wordBuffer wordp quoted) (enough : file.eof-file.cur < fuel) : Reads EOFatEOL fuel file wordBuffer wordp quoted := by
  induction fuel generalizing file wordBuffer wordp quoted with
  | zero => cases enough
  | succ fuel reads =>
    by_cases atEof : file.cur = file.eof
    · have none_left : items (if quoted then Mode.quoted else .plain) file.unread = [] := by
        rw [unread_nil atEof]
        cases quoted <;> rfl
      rw [Reads,none_left,taken_nil]
      exact ⟨_,_,by rw [qloop,if_pos atEof],doeow_delivers atEof begun.sound.behind begun.order begun.inside⟩
    · have more : file.cur < file.eof := Nat.lt_of_le_of_ne begun.sound.inside atEof
      by_cases hash : file.buf file.cur = '#' ∧ ¬ quoted = true
      · obtain rfl : quoted = false := not_eq_true _ ▸ hash.2
        exact reads_hash reads begun more enough hash.1
      by_cases ends : IsEol (file.buf file.cur)
      · exact reads_eol reads begun more enough ends
      by_cases blank : IsBlank (file.buf file.cur)
      · exact reads_blank reads begun more enough blank
      by_cases slash : file.buf file.cur = '\\' ∧ ¬ quoted = true
      · obtain rfl : quoted = false := not_eq_true _ ▸ slash.2
        exact reads_backslash reads begun more enough slash.1
      · exact reads_char reads begun more enough hash ends blank slash

theorem readWord_delivers (EOFatEOL : Bool) (sound : file.Sound) :
    ∃ file' r, file.readWord EOFatEOL = some (file',r) ∧ Delivers EOFatEOL file file.tokens [] file' r := by
  have start : Begun file file.cur file.cur false := ⟨sound,Nat.le_refl _,Nat.le_refl _⟩
  simpa [Reads,slice,tokens,readWord] using qloop_reads EOFatEOL (file.eof-file.cur+1) file file.cur file.cur false start (Nat.lt_succ_self _)

end File

section
variable {EOFatEOL : Bool} {tokens rest : List Token} {word w : List Char} {line : List (List Char)}

theorem nextWord_begun (begun : word ≠ []) : (nextWord EOFatEOL tokens word).1 ≠ none := by
  induction tokens generalizing word with
  | nil => simp [nextWord,begun]
  | cons t rest ih =>
    cases t with
    | char c => exact ih (by simp)
    | blank => simp [nextWord,begun]
    | eol => simp [nextWord,begun]

theorem nextWord_length (EOFatEOL : Bool) (tokens : List Token) (word : List Char) :
    (nextWord EOFatEOL tokens word).2.length ≤ tokens.length := by
  induction tokens generalizing word with
  | nil => simp [nextWord]
  | cons t rest ih =>
    cases t with
    | char c => exact le_succ_of_le (ih _)
    | blank =>
      by_cases empty : word = []
      · simpa [nextWord,empty] using le_succ_of_le (ih [])
      · simp [nextWord,empty]
    | eol =>
      by_cases empty : word = []
      · cases EOFatEOL with
        | true => simp [nextWord,empty]
        | false => simpa [nextWord,empty] using le_succ_of_le (ih [])
      · simp [nextWord,empty]

theorem nextWord_shorter (found : nextWord EOFatEOL tokens [] = (some w,rest)) : rest.length < tokens.length := by
  induction tokens with
  | nil => cases found
  | cons t ts ih =>
    cases t with
    | char c =>
      have bound := nextWord_length EOFatEOL ts [c]
      have here : nextWord EOFatEOL ts [c] = (some w,rest) := found
      rw [here] at bound
      exact Nat.lt_succ_of_le bound
    | blank => exact Nat.lt_succ_of_lt (ih found)
    | eol =>
      cases EOFatEOL with
      | true => cases found
      | false => exact Nat.lt_succ_of_lt (ih found)

theorem lines_next (found : nextWord EOFatEOL tokens word = (some w,rest)) (which : EOFatEOL = true ∨ line = []) :
    lines tokens word line = lines rest [] (line ++ [w]) := by
  induction tokens generalizing word with
  | nil =>
    by_cases empty : word = []
    · simp [nextWord,empty] at found
    · simp only [nextWord,if_neg empty,Prod.mk.injEq,some.injEq] at found
      obtain ⟨rfl,rfl⟩ := found
      simp [lines,endWord,empty]
  | cons t ts ih =>
    cases t with
    | char c => exact ih found
    | blank =>
      by_cases empty : word = []
      · subst empty
        exact ih found
      · simp only [nextWord,if_neg empty,Prod.mk.injEq,some.injEq] at found
        obtain ⟨rfl,rfl⟩ := found
        simp [lines,endWord,empty]
    | eol =>
      by_cases empty : word = []
      · subst empty
        cases EOFatEOL with
        | true => cases found
        | false =>
          obtain rfl : line = [] := which.resolve_left (by decide)
          exact ih found
      · simp only [nextWord,if_neg empty,Prod.mk.injEq,some.injEq] at found
        obtain ⟨rfl,rfl⟩ := found
        simp [lines,endWord,empty]

theorem lines_ended (line : List (List Char)) (none_left : nextWord true tokens [] = (none,rest)) :
    lines tokens [] line = endLine line ++ lines rest [] [] ∧ nextWord true rest [] = (none,rest) ∧ rest.length ≤ tokens.length := by
  induction tokens with
  | nil =>
    cases none_left
    exact ⟨(append_nil _).symm,rfl,Nat.le_refl _⟩
  | cons t ts ih =>
    cases t with
    | char c =>
      have some : (nextWord true ts [c]).1 ≠ none := nextWord_begun (cons_ne_nil c [])
      exact absurd (congrArg Prod.fst none_left) some
    | blank =>
      obtain ⟨same,again,shorter⟩ := ih none_left
      exact ⟨same,again,le_succ_of_le shorter⟩
    | eol =>
      cases none_left
      exact ⟨rfl,rfl,Nat.le_refl _⟩

theorem lines_none (none_left : nextWord false tokens [] = (none,rest)) : lines tokens [] [] = [] := by
  induction tokens with
  | nil => rfl
  | cons t ts ih =>
    cases t with
    | char c =>
      have some : (nextWord false ts [c]).1 ≠ none := nextWord_begun (cons_ne_nil c [])
      exact absurd (congrArg Prod.fst none_left) some
    | blank => exact ih none_left
    | eol => exact ih none_left

end

namespace File
variable {file file' : File}

/-- The words that are read up to the end of the line. -/
structure EndsLine (file file' : File) (ws : List (List Char)) : Prop where
  sound : file'.Sound
  lines : ∀ line, lines file.tokens [] line = endLine (line ++ ws) ++ lines file'.tokens [] []
  again : nextWord true file'.tokens [] = (none,file'.tokens)
  shorter : file'.tokens.length ≤ file.tokens.length

theorem words_endsLine (fuel : Nat) (sound : file.Sound) (enough : file.tokens.length < fuel) :
    ∃ file' ws, words fuel file = some (file',ws) ∧ EndsLine file file' ws := by
  induction fuel generalizing file with
  | zero => cases enough
  | succ fuel ih =>
    obtain ⟨file₁,r,performed,does⟩ := readWord_delivers true sound
    have result := does.result.symm
    cases r with
    | none =>
      obtain ⟨ended,again,shorter⟩ := lines_ended [] result
      refine ⟨file₁,[],by simp [words,performed],does.sound,fun line => ?_,again,shorter⟩
      rw [append_nil]
      exact (lines_ended line result).1
    | some place =>
      have shorter := nextWord_shorter result
      obtain ⟨file',ws,read,left⟩ := ih does.sound (by omega)
      refine ⟨file',_,by simp [words,performed,read]; rfl,left.sound,fun line => ?_,left.again,by have := left.shorter; omega⟩
      rw [lines_next result (.inl rfl),left.lines,append_assoc]
      rfl

theorem listen_endsLine (fuel : Nat) (sound : file.Sound) (enough : file.tokens.length < fuel) :
    ∃ file' ws, listen fuel file = some (file',ws) ∧ EndsLine file file' ws := by
  obtain ⟨file₁,r,performed,does⟩ := readWord_delivers true sound
  have result := does.result.symm
  cases r with
  | none =>
    obtain ⟨ended,again,shorter⟩ := lines_ended [] result
    obtain ⟨file',ws,read,left⟩ := words_endsLine fuel does.sound (by omega)
    refine ⟨file',ws,by simp [listen,performed,read],left.sound,fun line => ?_,left.again,Nat.le_trans left.shorter shorter⟩
    rw [(lines_ended line result).1,← (lines_ended line again).1,left.lines]
  | some place =>
    have shorter := nextWord_shorter result
    obtain ⟨file',ws,read,left⟩ := words_endsLine fuel does.sound (by omega)
    refine ⟨file',_,by simp [listen,performed,read]; rfl,left.sound,fun line => ?_,left.again,by have := left.shorter; omega⟩
    rw [lines_next result (.inl rfl),left.lines,append_assoc]
    rfl

theorem readRest_endsLine (first : List Char) (fuel : Nat) (sound : file.Sound) (enough : file.tokens.length < fuel) :
    ∃ file' ws, readRest first fuel file = some (file',ws) ∧ EndsLine file file' ws := by
  rw [readRest]
  split
  · exact listen_endsLine fuel sound enough
  · exact words_endsLine fuel sound enough

theorem readLines_lines (fuel : Nat) (sound : file.Sound) (enough : file.tokens.length < fuel) :
    ∃ file', readLines fuel file = some (file',AccessGrammar.lines file.tokens [] []) := by
  induction fuel generalizing file with
  | zero => cases enough
  | succ fuel ih =>
    obtain ⟨file₁,r,performed,does⟩ := readWord_delivers false sound
    have result := does.result.symm
    cases r with
    | none =>
      refine ⟨file₁,?_⟩
      rw [lines_none result]
      simp [readLines,performed]
    | some place =>
      have shorter := nextWord_shorter result
      obtain ⟨file₂,ws,read,left⟩ := readRest_endsLine (file₁.slice place.1 place.2) fuel does.sound (by omega)
      obtain ⟨file',others⟩ := ih left.sound (by have := left.shorter; omega)
      refine ⟨file',?_⟩
      have same : AccessGrammar.lines file.tokens [] [] = (file₁.slice place.1 place.2 :: ws) :: AccessGrammar.lines file₂.tokens [] [] := by
        rw [lines_next result (.inr rfl),left.lines]
        rfl
      simp only [readLines,performed,bind_eq_bind,bind_some,read,others,same]

theorem ofText_unread (text : List Char) : (ofText text).unread = text := by
  refine ext_getElem (by simp [unread,slice,ofText]) fun i first second => ?_
  simp [unread,slice,ofText,second]

theorem length_items (mode : Mode) (text : List Char) : (items mode text).length ≤ text.length := by
  induction text generalizing mode with
  | nil => cases mode <;> exact Nat.le_refl _
  | cons c rest ih =>
    have skipped (mode : Mode) : (items mode rest).length ≤ rest.length+1 := le_succ_of_le (ih mode)
    have kept (x : Item) (mode : Mode) : (x :: items mode rest).length ≤ rest.length+1 := succ_le_succ (ih mode)
    cases mode with
    | plain =>
      simp only [items]
      split_ifs
      exacts [skipped _,skipped _,kept _ _,kept _ _,kept _ _]
    | quoted =>
      simp only [items]
      split_ifs
      exacts [kept _ _,kept _ _,kept _ _]
    | comment =>
      simp only [items]
      split_ifs
      exacts [kept _ _,skipped _]

theorem length_taken (inside : Bool) (all : List Item) : (taken inside all).length ≤ all.length := by
  induction all generalizing inside with
  | nil => cases inside <;> exact Nat.le_refl _
  | cons x rest ih =>
    cases x with
    | char c => cases inside <;> exact succ_le_succ (ih true)
    | blank => cases inside <;> exact succ_le_succ (ih false)
    | eol => cases inside <;> exact succ_le_succ (ih false)
    | quotedBlank c => cases inside <;> exact succ_le_succ (ih false)
    | joined =>
      cases inside with
      | true => exact succ_le_succ (ih false)
      | false => exact le_succ_of_le (ih false)

theorem ofText_sound (text : List Char) : (ofText text).Sound := ⟨Nat.zero_le _,Nat.le_refl _⟩

/-- A call of `readWord`. -/
def Call (file : File) (EOFatEOL : Bool) (file' : File) : Prop := ∃ r, file.readWord EOFatEOL = some (file',r)

/-- Whatever has been read of the text, the rest of it is as it was. -/
def Intact (text : List Char) (file : File) : Prop :=
  file.Sound ∧ file.eof = text.length ∧ ∀ i, file.consumed ≤ i → i < text.length → file.buf i = text.getD i '\x00'

theorem intact_ofText (text : List Char) : Intact text (ofText text) := ⟨ofText_sound text,rfl,fun _ _ _ => rfl⟩

theorem call_intact {text : List Char} {EOFatEOL : Bool} (intact : Intact text file) (call : Call file EOFatEOL file') :
    Intact text file' := by
  obtain ⟨sound,eof,kept⟩ := intact
  obtain ⟨r,performed⟩ := call
  obtain ⟨file₁,r₁,performed₁,does⟩ := readWord_delivers EOFatEOL sound
  obtain ⟨rfl,rfl⟩ := Prod.mk.inj (some.inj (performed₁.symm.trans performed))
  refine ⟨does.sound,does.eof.trans eof,fun i first last => ?_⟩
  exact (does.kept i first (eof ▸ last)).trans (kept i (Nat.le_trans does.onward first) last)

end File

open File

/-- Every call ends, whatever calls there were before, and what has not been read stays as it was; and the lines that are
    read are those of the grammar just when nothing is broken. -/
theorem access_words_iff (text : List Char) :
    (∀ flags file, Run Call (ofText text) flags file → ∀ EOFatEOL, ∃ file' r, file.readWord EOFatEOL = some (file',r) ∧
      ∀ i, file'.consumed ≤ i → i < text.length → file'.buf i = text.getD i '\x00') ∧
    ∃ ls, readAccessFile text = some ls ∧ (ls = grammar text ↔ Unbroken (items .plain text)) := by
  constructor
  · intro flags file run EOFatEOL
    have intact := run.invariant (fun _ _ _ intact call => call_intact intact call) (intact_ofText text)
    obtain ⟨file',r,performed,_⟩ := readWord_delivers EOFatEOL intact.1
    exact ⟨file',r,performed,(call_intact intact ⟨r,performed⟩).2.2⟩
  · have enough : (ofText text).tokens.length < text.length+1 := by
      have taken_le := length_taken false (items .plain (ofText text).unread)
      have items_le := length_items .plain (ofText text).unread
      rw [ofText_unread] at items_le
      rw [tokens,ofText_unread] at *
      omega
    obtain ⟨file',read⟩ := readLines_lines (text.length+1) (ofText_sound text) enough
    refine ⟨_,by rw [readAccessFile,read]; rfl,?_⟩
    rw [tokens,ofText_unread]
    exact lines_iff (items .plain text)

/-- A quoted blank separates two words, and a line that goes on behind a word ends there. -/
theorem quoted_words_parted :
    (readAccessFile "a\\ b".toList = some [["a".toList,"b".toList]] ∧ grammar "a\\ b".toList = [["a b".toList]]) ∧
      (readAccessFile "a\\\nb".toList = some [["a".toList],["b".toList]] ∧ grammar "a\\\nb".toList = [["ab".toList]]) ∧
        ¬ ∀ text, readAccessFile text = some (grammar text) := by
  refine ⟨by decide,by decide,fun always => ?_⟩
  exact absurd (always "a\\ b".toList) (by decide)

end KdeWorkspace.AccessWords
