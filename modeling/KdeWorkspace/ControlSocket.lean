import KdeWorkspace.Loops
import Mathlib.Data.List.Infix

/-!
The framing of kdm's control sockets (`handleChan`, `handleCtrl`): bytes come in
by non-blocking reads, and every line that ends with a newline is a command.

Bytes that are left over stay in a buffer; the sign of its length tells whether
a newline has been looked for in it. A read that brings no newline is not kept
at all, so a connection keeps its stream exactly when every read of it brought
one (`run_framing`).
-/
namespace KdeWorkspace.ControlSocket
open Loops List

def newline : UInt8 := 10

/-- The size of the buffer on the stack. -/
def bufSize : Nat := 1024

/-- `struct bsock`: what has been read and not processed. A length that is not
    positive says that a newline has been looked for. -/
structure BSock where
  buffer : List UInt8
  buflen : Int
  length : buflen.natAbs = buffer.length
  looked : buflen ≤ 0 → newline ∉ buffer

namespace BSock

def empty : BSock := ⟨[],0,rfl,by simp⟩

/-- Bytes in which no newline has been looked for. -/
def fresh (bytes : List UInt8) : BSock where
  buffer := bytes
  buflen := bytes.length
  length := Int.natAbs_natCast _
  looked := by
    intro short
    obtain rfl := List.length_eq_zero_iff.mp (show bytes.length = 0 by omega)
    simp

/-- Bytes without a newline. -/
def searched (bytes : List UInt8) (none : newline ∉ bytes) : BSock where
  buffer := bytes
  buflen := -bytes.length
  length := by simp
  looked := fun _ => none

end BSock

/-- What `handleChan` returns: -1, 0, or 1 after it has called `processCtrl`. -/
inductive Handled
  | closed
  | nothing
  | command (line : List UInt8)
deriving Repr, DecidableEq

/-- The bytes up to the first newline, and the bytes behind it. -/
def firstLine (bytes : List UInt8) : List UInt8 := bytes.takeWhile (· ≠ newline)

def behindLine (bytes : List UInt8) : List UInt8 := (bytes.dropWhile (· ≠ newline)).tail

/-- The bytes that `handleChan` reads of those that wait at the socket; nothing when it does not read. -/
def reader (readable : Bool) (cs : BSock) (unread : List UInt8) : List UInt8 :=
  if cs.buflen ≤ 0 ∧ readable = true then unread.take (bufSize-cs.buflen.natAbs) else []

def handleChan (readable : Bool) (cs : BSock) (unread : List UInt8) : Handled × BSock :=
  let read := decide (cs.buflen ≤ 0 ∧ readable = true)
  let data := reader readable cs unread
  if read = true ∧ data = [] then (.closed,cs)
  else
    let bl : Int := if read then cs.buflen.natAbs+data.length else cs.buflen
    let bufp := cs.buffer ++ data
    if bl > 0 then
      if found : newline ∈ bufp then (.command (firstLine bufp),.fresh (behindLine bufp))
      else if data.length = 0 then (.nothing,.searched bufp found)
      else (.nothing,cs)
    else (.nothing,cs)

/-- A connection: its buffer and the bytes that wait at the socket, with what was
    sent, the reads and the commands so far. -/
structure Cmdsock where
  fd : Nat
  sock : BSock
  unread : List UInt8
  hungUp : Bool
  sent : List UInt8
  reads : List (List UInt8)
  commands : List (List UInt8)

namespace Cmdsock

/-- The connection after `acceptSock`. -/
def accepted (fd : Nat) : Cmdsock := ⟨fd,.empty,[],false,[],[],[]⟩

/-- The connection after `handleChan`. -/
def handled (cs : Cmdsock) (readable : Bool) : Cmdsock :=
  let data := reader readable cs.sock cs.unread
  let chan := handleChan readable cs.sock cs.unread
  { cs with
    sock := chan.2
    unread := cs.unread.drop data.length
    reads := if data = [] then cs.reads else cs.reads ++ [data]
    commands := match chan.1 with
      | .command line => cs.commands ++ [line]
      | _ => cs.commands }

end Cmdsock

/-- The open connections of a control socket, and those that were closed. -/
structure CtrlRec where
  css : List Cmdsock
  gone : List Cmdsock

/-- The loop of `handleCtrl` over the connections; it ends after one command. -/
def handleChans (readable : Nat → Bool) : List Cmdsock → List Cmdsock × List Cmdsock
  | [] => ([],[])
  | cs :: rest =>
    match (handleChan (readable cs.fd) cs.sock cs.unread).1 with
    | .closed =>
      let others := handleChans readable rest
      (others.1,cs :: others.2)
    | .command _ => (cs.handled (readable cs.fd) :: rest,[])
    | .nothing =>
      let others := handleChans readable rest
      (cs.handled (readable cs.fd) :: others.1,others.2)

/-- `handleCtrl` where no connection waits to be accepted. -/
def handleCtrl (readable : Nat → Bool) (cr : CtrlRec) : CtrlRec :=
  let handled := handleChans readable cr.css
  ⟨handled.1,handled.2 ++ cr.gone⟩

/-- What happens at a control socket. -/
inductive Op
  | acceptSock (fd : Nat)
  | send (fd : Nat) (bytes : List UInt8)
  | hangUp (fd : Nat)
  | handleCtrl (readable : Nat → Bool)

/-- A new connection has a new descriptor, a peer that has hung up sends nothing,
    and a connection is readable when bytes wait or its peer has hung up. -/
def Op.Allowed (cr : CtrlRec) : Op → Prop
  | .acceptSock fd => ∀ cs ∈ cr.css, cs.fd ≠ fd
  | .send fd _ => ∀ cs ∈ cr.css, cs.fd = fd → cs.hungUp = false
  | .hangUp _ => True
  | .handleCtrl readable => ∀ cs ∈ cr.css, readable cs.fd = true → cs.unread ≠ [] ∨ cs.hungUp = true

instance (cr : CtrlRec) : (op : Op) → Decidable (op.Allowed cr)
  | .acceptSock fd => inferInstanceAs (Decidable (∀ cs ∈ cr.css, cs.fd ≠ fd))
  | .send fd _ => inferInstanceAs (Decidable (∀ cs ∈ cr.css, cs.fd = fd → cs.hungUp = false))
  | .hangUp _ => inferInstanceAs (Decidable True)
  | .handleCtrl readable =>
    inferInstanceAs (Decidable (∀ cs ∈ cr.css, readable cs.fd = true → cs.unread ≠ [] ∨ cs.hungUp = true))

def CtrlRec.perform (cr : CtrlRec) : Op → CtrlRec
  | .acceptSock fd => { cr with css := .accepted fd :: cr.css }
  | .send fd bytes => { cr with css := cr.css.map fun cs =>
      if cs.fd = fd then { cs with unread := cs.unread ++ bytes, sent := cs.sent ++ bytes } else cs }
  | .hangUp fd => { cr with css := cr.css.map fun cs => if cs.fd = fd then { cs with hungUp := true } else cs }
  | .handleCtrl readable => handleCtrl readable cr

theorem firstLine_behindLine {bytes : List UInt8} (found : newline ∈ bytes) :
    firstLine bytes ++ newline :: behindLine bytes = bytes := by
  induction bytes with
  | nil => simp at found
  | cons byte rest ih =>
    by_cases ends : byte = newline
    · simp [firstLine,behindLine,ends]
    · have later : newline ∈ rest := by
        rcases mem_cons.mp found with same | later
        · exact absurd same.symm ends
        · exact later
      have tail := ih later
      unfold firstLine behindLine at tail ⊢
      rw [takeWhile_cons_of_pos (by simpa using ends),dropWhile_cons_of_pos (by simpa using ends)]
      simp only [cons_append,tail]

theorem newline_not_mem_firstLine (bytes : List UInt8) : newline ∉ firstLine bytes := by
  intro member
  have stays := all_eq_true.mp (all_takeWhile (p := fun byte => decide (byte ≠ newline))) newline member
  simp at stays

/-- No line of the stream, ended or not, has 1024 bytes. -/
def ShortLines (stream : List UInt8) : Prop := ∀ line, line <:+: stream → newline ∉ line → line.length < bufSize

theorem reader_append (readable : Bool) (cs : BSock) (unread : List UInt8) :
    reader readable cs unread ++ unread.drop (reader readable cs unread).length = unread := by
  apply prefix_iff_eq_append.mp
  unfold reader
  split
  · exact take_prefix _ _
  · exact nil_prefix

/-- What `handleChan` does: it closes the connection, hands over the first line,
    waits for more, or drops what it has read. -/
theorem handleChan_cases (readable : Bool) (cs : BSock) (unread : List UInt8) :
    let data := reader readable cs unread
    let chan := handleChan readable cs unread
    (chan = (.closed,cs) ∧ cs.buflen ≤ 0 ∧ readable = true ∧ data = []) ∨
    (newline ∈ cs.buffer ++ data ∧
      chan = (.command (firstLine (cs.buffer ++ data)),.fresh (behindLine (cs.buffer ++ data)))) ∨
    (chan.1 = .nothing ∧ chan.2.buffer = cs.buffer ∧ chan.2.buflen ≤ 0 ∧ data = []) ∨
    (chan = (.nothing,cs) ∧ cs.buflen ≤ 0 ∧ data ≠ [] ∧ newline ∉ data) := by
  intro data chan
  by_cases read : cs.buflen ≤ 0 ∧ readable = true
  · by_cases none : data = []
    · left
      exact ⟨if_pos ⟨decide_eq_true read,none⟩,read.1,read.2,none⟩
    · have bl : (cs.buflen.natAbs : Int)+data.length > 0 := by
        have := length_pos_iff.mpr none
        omega
      have step : chan = if found : newline ∈ cs.buffer ++ data then
          (.command (firstLine (cs.buffer ++ data)),.fresh (behindLine (cs.buffer ++ data)))
          else if data.length = 0 then (.nothing,.searched (cs.buffer ++ data) found) else (.nothing,cs) := by
        unfold chan handleChan
        rw [if_neg (fun both => none both.2)]
        simp only [decide_eq_true read,↓reduceIte]
        exact if_pos bl
      by_cases found : newline ∈ cs.buffer ++ data
      · right; left
        rw [step,dif_pos found]
        exact ⟨found,rfl⟩
      · right; right; right
        rw [step,dif_neg found,if_neg (by simpa using none)]
        exact ⟨rfl,read.1,none,fun member => found (mem_append_right _ member)⟩
  · have none : data = [] := if_neg read
    have step : chan = if cs.buflen > 0 then
        (if found : newline ∈ cs.buffer then (.command (firstLine cs.buffer),.fresh (behindLine cs.buffer))
        else (.nothing,.searched cs.buffer found)) else (.nothing,cs) := by
      unfold chan handleChan
      rw [if_neg (fun both => read (of_decide_eq_true both.1))]
      simp only [decide_eq_false read,Bool.false_eq_true,↓reduceIte]
      rw [show reader readable cs unread = [] from none]
      simp
    by_cases positive : cs.buflen > 0
    · rw [if_pos positive] at step
      by_cases found : newline ∈ cs.buffer
      · right; left
        rw [step,dif_pos found,none]
        simp [found]
      · right; right; left
        rw [step,dif_neg found]
        refine ⟨rfl,rfl,?_,none⟩
        simp [BSock.searched]
    · right; right; left
      have low : cs.buflen ≤ 0 := by omega
      rw [step,if_neg positive]
      exact ⟨rfl,rfl,low,none⟩

namespace Cmdsock

/-- The commands with their newlines, the buffer, and what is not yet read. -/
def kept (cs : Cmdsock) : List UInt8 := cs.commands.flatMap (· ++ [newline]) ++ cs.sock.buffer ++ cs.unread

/-- Nothing of the stream is lost or doubled, and every command is one line. -/
def Whole (cs : Cmdsock) : Prop := cs.kept = cs.sent ∧ ∀ line ∈ cs.commands, newline ∉ line

/-- Every read brought a newline. -/
def ReadsEnd (cs : Cmdsock) : Prop := ∀ chunk ∈ cs.reads, newline ∈ chunk

/-- A connection keeps its stream until a read brings no newline, and is short of bytes from then on. -/
structure Accounted (cs : Cmdsock) : Prop where
  commands : ∀ line ∈ cs.commands, newline ∉ line
  whole : cs.ReadsEnd → cs.kept = cs.sent
  short : ¬ cs.ReadsEnd → cs.kept.length < cs.sent.length

theorem Accounted.whole_iff {cs : Cmdsock} (accounted : cs.Accounted) : cs.Whole ↔ cs.ReadsEnd := by
  constructor
  · intro ⟨kept,_⟩
    by_contra fails
    have short := accounted.short fails
    rw [kept] at short
    exact Nat.lt_irrefl _ short
  · intro ends
    exact ⟨accounted.whole ends,accounted.commands⟩

theorem accepted_accounted (fd : Nat) : (accepted fd).Accounted := by
  refine ⟨by simp [accepted],?_,?_⟩
  · intro _
    rfl
  · intro fails
    exact absurd (fun chunk member => by simp [accepted] at member) fails

private theorem Accounted.of_kept {cs : Cmdsock} (accounted : cs.Accounted) {after : Cmdsock} (data : List UInt8)
    (reads : after.reads = if data = [] then cs.reads else cs.reads ++ [data]) (sent : after.sent = cs.sent)
    (kept : after.kept = cs.kept) (brings : data = [] ∨ newline ∈ data)
    (commands : ∀ line ∈ after.commands, newline ∉ line) : after.Accounted := by
  have same : after.ReadsEnd ↔ cs.ReadsEnd := by
    unfold ReadsEnd
    rw [reads]
    split
    · rfl
    · rename_i some
      constructor
      · intro ends chunk member
        exact ends chunk (mem_append_left _ member)
      · intro ends chunk member
        rcases mem_append.mp member with old | new
        · exact ends chunk old
        · rw [mem_singleton.mp new]
          exact brings.resolve_left some
  refine ⟨commands,?_,?_⟩
  · intro ends
    rw [kept,sent]
    exact accounted.whole (same.mp ends)
  · intro fails
    rw [kept,sent]
    exact accounted.short (fun ends => fails (same.mpr ends))

/-- The connection goes on where `handleChan` does not close it. -/
theorem handled_accounted {cs : Cmdsock} (accounted : cs.Accounted) {readable : Bool}
    (goes : (handleChan readable cs.sock cs.unread).1 ≠ .closed) : (cs.handled readable).Accounted := by
  have split := reader_append readable cs.sock cs.unread
  have cases := handleChan_cases readable cs.sock cs.unread
  have low : reader readable cs.sock cs.unread ≠ [] → cs.sock.buflen ≤ 0 := by
    intro some
    by_contra high
    exact some (if_neg (fun both => high both.1))
  unfold handled
  generalize reader readable cs.sock cs.unread = data at split cases low ⊢
  generalize handleChan readable cs.sock cs.unread = chan at goes cases ⊢
  obtain ⟨closed,_⟩ | ⟨found,rfl⟩ | ⟨nothing,buffer,_,rfl⟩ | ⟨rfl,_,some,lost⟩ := cases
  · rw [closed] at goes
    exact absurd rfl goes
  · have whole := firstLine_behindLine found
    refine accounted.of_kept data rfl rfl ?_ ?_ ?_
    · calc _ = cs.commands.flatMap (· ++ [newline]) ++ (firstLine (cs.sock.buffer ++ data) ++
            newline :: behindLine (cs.sock.buffer ++ data)) ++ cs.unread.drop data.length := by
            simp [kept,BSock.fresh]
        _ = cs.commands.flatMap (· ++ [newline]) ++ cs.sock.buffer ++ (data ++ cs.unread.drop data.length) := by
          rw [whole]
          simp
        _ = cs.kept := by rw [split,kept]
    · by_cases none : data = []
      · exact Or.inl none
      · exact Or.inr ((mem_append.mp found).resolve_left (cs.sock.looked (low none)))
    · intro line member
      rcases mem_append.mp member with old | new
      · exact accounted.commands line old
      · rw [mem_singleton.mp new]
        exact newline_not_mem_firstLine _
  · refine accounted.of_kept [] rfl rfl ?_ (Or.inl rfl) ?_
    · simp [kept,buffer,nothing]
    · simpa [nothing] using accounted.commands
  · have shorter : (cs.unread.drop data.length).length < cs.unread.length := by
      have := length_pos_iff.mpr some
      have total := congrArg length split
      simp only [length_append] at total
      omega
    have before : cs.kept.length ≤ cs.sent.length := by
      by_cases ends : cs.ReadsEnd
      · rw [accounted.whole ends]
      · exact le_of_lt (accounted.short ends)
    refine ⟨accounted.commands,?_,?_⟩
    · intro ends
      refine absurd (ends data ?_) lost
      simp [some]
    · intro _
      simp only [kept,length_append] at before ⊢
      omega

theorem unread_of_closed {cs : Cmdsock} (whole : cs.Whole) (short : ShortLines cs.sent) {readable : Bool}
    (closed : (handleChan readable cs.sock cs.unread).1 = .closed) : readable = true ∧ cs.unread = [] := by
  obtain ⟨_,low,reads,none⟩ | ⟨_,same⟩ | ⟨same,_⟩ | ⟨same,_⟩ := handleChan_cases readable cs.sock cs.unread
  · refine ⟨reads,?_⟩
    have inside : cs.sock.buffer <:+: cs.sent := ⟨cs.commands.flatMap (· ++ [newline]),cs.unread,whole.1⟩
    have room := short cs.sock.buffer inside (cs.sock.looked low)
    rw [← cs.sock.length] at room
    unfold reader at none
    rw [if_pos ⟨low,reads⟩] at none
    rcases take_eq_nil_iff.mp none with full | none
    · omega
    · exact none
  · rw [same] at closed
    cases closed
  · rw [same] at closed
    cases closed
  · rw [same] at closed
    cases closed

end Cmdsock

/-- The connection has been given the whole of its stream. -/
def Cmdsock.Finished (cs : Cmdsock) : Prop := cs.hungUp = true ∧ cs.unread = []

/-- What holds of a control socket in every state of a run. -/
structure Framed (cr : CtrlRec) : Prop where
  css : ∀ cs ∈ cr.css, cs.Accounted
  gone : ∀ cs ∈ cr.gone, cs.Accounted
  finished : ∀ cs ∈ cr.gone, ShortLines cs.sent → cs.ReadsEnd → cs.Finished

theorem handleChans_framed {readable : Nat → Bool} {css : List Cmdsock} (accounted : ∀ cs ∈ css, cs.Accounted)
    (allowed : ∀ cs ∈ css, readable cs.fd = true → cs.unread ≠ [] ∨ cs.hungUp = true) :
    Framed ⟨(handleChans readable css).1,(handleChans readable css).2⟩ := by
  induction css with
  | nil => exact ⟨by simp [handleChans],by simp [handleChans],by simp [handleChans]⟩
  | cons cs rest ih =>
    have rest_framed := ih (fun other member => accounted other (mem_cons_of_mem _ member))
      (fun other member => allowed other (mem_cons_of_mem _ member))
    have head := accounted cs mem_cons_self
    unfold handleChans
    cases chan : (handleChan (readable cs.fd) cs.sock cs.unread).1 with
    | closed =>
      refine ⟨rest_framed.css,?_,?_⟩
      · intro other member
        rcases mem_cons.mp member with rfl | later
        · exact head
        · exact rest_framed.gone other later
      · intro other member
        rcases mem_cons.mp member with rfl | later
        · intro short ends
          obtain ⟨reads,none⟩ := Cmdsock.unread_of_closed (head.whole_iff.mpr ends) short chan
          refine ⟨?_,none⟩
          exact (allowed other mem_cons_self reads).resolve_left (fun some => some none)
        · exact rest_framed.finished other later
    | nothing =>
      have next := Cmdsock.handled_accounted head (show (handleChan (readable cs.fd) cs.sock cs.unread).1 ≠ .closed by
        simp [chan])
      refine ⟨?_,rest_framed.gone,rest_framed.finished⟩
      intro other member
      rcases mem_cons.mp member with rfl | later
      · exact next
      · exact rest_framed.css other later
    | command line =>
      have next := Cmdsock.handled_accounted head (show (handleChan (readable cs.fd) cs.sock cs.unread).1 ≠ .closed by
        simp [chan])
      refine ⟨?_,by simp,by simp⟩
      intro other member
      rcases mem_cons.mp member with rfl | later
      · exact next
      · exact accounted other (mem_cons_of_mem _ later)

theorem send_accounted {cs : Cmdsock} (accounted : cs.Accounted) (bytes : List UInt8) :
    ({ cs with unread := cs.unread ++ bytes, sent := cs.sent ++ bytes } : Cmdsock).Accounted := by
  refine ⟨accounted.commands,?_,?_⟩
  · intro ends
    have kept := accounted.whole ends
    simp only [Cmdsock.kept] at kept ⊢
    rw [← append_assoc,kept]
  · intro fails
    have short := accounted.short fails
    simp only [Cmdsock.kept,length_append] at short ⊢
    omega

theorem perform_framed {cr : CtrlRec} (framed : Framed cr) {op : Op} (allowed : op.Allowed cr) :
    Framed (cr.perform op) := by
  cases op with
  | acceptSock fd =>
    refine ⟨?_,framed.gone,framed.finished⟩
    intro cs member
    rcases mem_cons.mp member with rfl | old
    · exact Cmdsock.accepted_accounted fd
    · exact framed.css cs old
  | send fd bytes =>
    refine ⟨?_,framed.gone,framed.finished⟩
    intro cs member
    obtain ⟨old,inside,rfl⟩ := mem_map.mp member
    split
    · exact send_accounted (framed.css old inside) bytes
    · exact framed.css old inside
  | hangUp fd =>
    refine ⟨?_,framed.gone,framed.finished⟩
    intro cs member
    obtain ⟨old,inside,rfl⟩ := mem_map.mp member
    split
    · exact ⟨(framed.css old inside).commands,(framed.css old inside).whole,(framed.css old inside).short⟩
    · exact framed.css old inside
  | handleCtrl readable =>
    have handled := handleChans_framed framed.css allowed
    refine ⟨handled.css,?_,?_⟩
    · intro cs member
      rcases mem_append.mp member with new | old
      · exact handled.gone cs new
      · exact framed.gone cs old
    · intro cs member
      rcases mem_append.mp member with new | old
      · exact handled.finished cs new
      · exact framed.finished cs old

def Step (before : CtrlRec) (op : Op) (after : CtrlRec) : Prop := op.Allowed before ∧ after = before.perform op

theorem run_framed {ops : List Op} {cr : CtrlRec} (run : Run Step ⟨[],[]⟩ ops cr) : Framed cr := by
  refine run.invariant (P := Framed) ?_ ⟨by simp,by simp,by simp⟩
  rintro before op after framed ⟨allowed,rfl⟩
  exact perform_framed framed allowed

/-- No command is processed by the call. -/
def Quiet (readable : Nat → Bool) (css : List Cmdsock) : Prop :=
  ∀ cs ∈ css, ∀ line, (handleChan (readable cs.fd) cs.sock cs.unread).1 ≠ .command line

theorem handleChans_settled {readable : Nat → Bool} {css : List Cmdsock} (quiet : Quiet readable css) :
    ∀ cs ∈ (handleChans readable css).1, newline ∉ cs.sock.buffer := by
  induction css with
  | nil => simp [handleChans]
  | cons cs rest ih =>
    have others := ih (fun other member => quiet other (mem_cons_of_mem _ member))
    have none := quiet cs mem_cons_self
    unfold handleChans
    cases chan : (handleChan (readable cs.fd) cs.sock cs.unread).1 with
    | closed => exact others
    | command line => exact absurd chan (none line)
    | nothing =>
      intro other member
      rcases mem_cons.mp member with rfl | later
      · apply (handleChan (readable cs.fd) cs.sock cs.unread).2.looked
        obtain ⟨same,_⟩ | ⟨_,same⟩ | ⟨_,_,low,_⟩ | ⟨same,low,_⟩ := handleChan_cases (readable cs.fd) cs.sock cs.unread
        · simp [same] at chan
        · simp [same] at chan
        · exact low
        · rw [same]
          exact low
      · exact others other later

end KdeWorkspace.ControlSocket
