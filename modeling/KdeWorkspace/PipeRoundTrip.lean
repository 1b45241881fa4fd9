import KdeWorkspace.PipeCodec

/-!
What is sent over the pipes of kdm is received, and nothing else is taken from the stream. That holds
exactly if no length is over the limit of the reading program: a value that the core refuses
stays in the stream (`recvAll_sendAll_iff`).
-/
namespace KdeWorkspace.PipeRoundTrip
open Streams PipeCodec Option
open List (forall_mem_cons append_assoc)

theorem bytesInt_intBytes (val : CInt) : bytesInt (intBytes val) = val := by
  apply BitVec.eq_of_toNat_eq
  have small := val.isLt
  simp only [bytesInt,intBytes,BitVec.toNat_ofNat,UInt8.toNat_ofNat']
  omega

theorem reads_recvInt (val : CInt) : Reads recvInt (intBytes val) val := by
  have first : Reads (take 4) (intBytes val) (intBytes val) := reads_take (intBytes val)
  have both := @Reads.bind _ _ _ _ (fun raw => pure (bytesInt raw)) _ _ _ _ first (reads_pure _)
  rw [List.append_nil,bytesInt_intBytes] at both
  exact both

theorem toInt_nonneg_iff (len : CInt) : 0 ≤ len.toInt ↔ len.toNat < 2^31 := by
  rw [BitVec.toInt_eq_toNat_cond]
  have := len.isLt
  split_ifs <;> omega

theorem lenOf_toNat (bytes : Bytes) : (lenOf bytes).toNat = bytes.length%2^32 := BitVec.toNat_ofNat _ _

/-- Lengths up to a limit are those that are not refused. -/
structure Limit (refused : CInt → Bool) (limit : Nat) : Prop where
  int : limit < 2^31
  iff : ∀ len : CInt, (refused len = false ∧ 0 ≤ len.toInt) ↔ len.toNat ≤ limit

theorem limit_core : Limit Core.tooLong 0x10000 := by
  refine ⟨by decide,fun len => ?_⟩
  rw [toInt_nonneg_iff]
  simp [Core.tooLong]
  omega

theorem limit_buf : Limit Core.tooLongBuf 0xffff := by
  refine ⟨by decide,fun len => ?_⟩
  rw [toInt_nonneg_iff]
  simp [Core.tooLongBuf]
  omega

theorem limit_helper : Limit (fun _ => false) (2^31-1) := by
  refine ⟨by decide,fun len => ?_⟩
  rw [toInt_nonneg_iff]
  simp
  omega

/-- A way to write that writes so many bytes if the number is not negative. -/
def Writes (gWrite : Bytes → CInt → Option Bytes) : Prop :=
  ∀ buf len, 0 ≤ len.toInt → gWrite buf len = some (buf.take len.toNat)

theorem writes_core : Writes Core.gWrite := by
  intro buf len nonneg
  unfold Core.gWrite
  rw [if_neg (by omega)]

theorem writes_helper : Writes Helper.gWrite := by
  intro buf len nonneg
  unfold Helper.gWrite
  have other : len ≠ -1 := by
    intro same
    subst same
    revert nonneg
    decide
  rw [if_neg other,if_neg (by omega)]

theorem lenOf_chars (s : CString) : lenOf s.chars+1 = lenOf s.memory := by
  unfold lenOf CString.memory
  rw [List.length_append,List.length_singleton,BitVec.ofNat_add]
  rfl

section
variable {gWrite : Bytes → CInt → Option Bytes} (writes : Writes gWrite)
include writes

theorem gWrite_int (val : CInt) : gWrite (intBytes val) 4 = some (intBytes val) := writes _ _ (by decide)

theorem gWrite_all {body : Bytes} (small : body.length < 2^31) : gWrite body (lenOf body) = some body := by
  have size : (lenOf body).toNat = body.length := by
    rw [lenOf_toNat]
    omega
  rw [writes _ _ ((toInt_nonneg_iff _).mpr (by omega)),size,List.take_length]

theorem sendArr_all {body : Bytes} (small : body.length < 2^31) :
    sendArr gWrite (lenOf body) body = some (intBytes (lenOf body) ++ body) := by
  unfold sendArr
  rw [gWrite_int writes,gWrite_all writes small]
  rfl

theorem sendNStr_all {s : CString} (small : s.memory.length < 2^31) :
    sendNStr gWrite s.chars (lenOf s.chars) = some (intBytes (lenOf s.memory) ++ s.memory) := by
  unfold sendNStr
  have shorter : s.chars.length < 2^31 := by
    unfold CString.memory at small
    rw [List.length_append] at small
    omega
  rw [lenOf_chars,gWrite_int writes,gWrite_all writes shorter,writes [0] 1 (by decide)]
  unfold CString.memory
  simp

theorem sendArr_head {len : CInt} {data written : Bytes} (sent : sendArr gWrite len data = some written) :
    ∃ body, written = intBytes len ++ body := by
  unfold sendArr at sent
  rw [gWrite_int writes] at sent
  obtain ⟨head,same,behind⟩ := bind_eq_some_iff.mp sent
  obtain ⟨body,-,all⟩ := bind_eq_some_iff.mp behind
  cases same
  cases all
  exact ⟨body,rfl⟩

theorem sendNStr_head {s : CString} {written : Bytes} (sent : sendNStr gWrite s.chars (lenOf s.chars) = some written) :
    ∃ body, written = intBytes (lenOf s.memory) ++ body := by
  unfold sendNStr at sent
  rw [lenOf_chars,gWrite_int writes] at sent
  obtain ⟨head,same,behind⟩ := bind_eq_some_iff.mp sent
  obtain ⟨body,-,behind⟩ := bind_eq_some_iff.mp behind
  obtain ⟨last,-,all⟩ := bind_eq_some_iff.mp behind
  cases same
  cases all
  exact ⟨body ++ last,by rw [append_assoc]⟩

end

section
variable {refused : CInt → Bool} {limit : Nat} (bound : Limit refused limit)

private theorem recvArr_eq (len : CInt) (rest : Bytes) :
    recvArr refused (intBytes len ++ rest) =
      if len = 0 || refused len then some ((len,none),rest)
      else (gRead len rest).bind fun got => some ((len,some got.1),got.2) := by
  have step : recvArr refused (intBytes len ++ rest) =
      (recvInt (intBytes len ++ rest)).bind fun got =>
        (if got.1 = 0 || refused got.1 then pure (got.1,none)
          else do let buf ← gRead got.1; return (got.1,some buf) : Reader UInt8 (CInt × Option Bytes)) got.2 := rfl
  rw [step,reads_recvInt len rest,bind_some]
  dsimp only
  split_ifs
  · rfl
  · rfl

theorem reads_recvArr_nil : Reads (recvArr refused) (intBytes 0) (0,none) := by
  intro rest
  rw [recvArr_eq,if_pos (by simp)]

include bound in
theorem reads_recvArr {body : Bytes} (full : body ≠ []) (fits : body.length ≤ limit) :
    Reads (recvArr refused) (intBytes (lenOf body) ++ body) (lenOf body,some body) := by
  intro rest
  have small : body.length < 2^31 := Nat.lt_of_le_of_lt fits bound.int
  have size : (lenOf body).toNat = body.length := by
    rw [lenOf_toNat]
    omega
  have nonzero : lenOf body ≠ 0 := by
    intro zero
    rw [zero] at size
    exact full (List.length_eq_zero_iff.mp size.symm)
  obtain ⟨accepted,nonneg⟩ := (bound.iff (lenOf body)).mpr (by rw [size]; exact fits)
  rw [append_assoc,recvArr_eq,if_neg (by rw [accepted,decide_eq_false nonzero]; simp)]
  unfold gRead
  rw [if_neg (by omega),size,reads_take body rest]
  rfl

include bound in
theorem recvArr_some {len len' : CInt} {rest rest' buf : Bytes}
    (got : recvArr refused (intBytes len ++ rest) = some ((len',some buf),rest')) :
    len' = len ∧ buf.length = len.toNat ∧ len.toNat ≤ limit := by
  rw [recvArr_eq] at got
  split_ifs at got with skipped
  · cases got
  · obtain ⟨⟨body,behind⟩,read,same⟩ := Option.bind_eq_some_iff.mp got
    cases same
    simp only [Bool.or_eq_true,decide_eq_true_eq,not_or,Bool.not_eq_true] at skipped
    unfold gRead at read
    split_ifs at read with negative
    · cases read
    · unfold take at read
      split_ifs at read with enough
      cases read
      refine ⟨rfl,by rw [List.length_take]; omega,?_⟩
      exact (bound.iff len).mp ⟨skipped.2,by omega⟩

theorem stringAt_memory (s : CString) : stringAt s.memory = s.chars := by
  unfold stringAt CString.memory
  rw [List.takeWhile_append_of_pos]
  · simp
  · intro char inside
    simp only [bne_iff_ne]
    intro zero
    exact s.zeroless (zero ▸ inside)

theorem stringAt_length (buf : Bytes) : (stringAt buf).length ≤ buf.length := (List.takeWhile_sublist _).length_le

theorem memory_length (s : CString) : s.memory.length = s.chars.length+1 := by
  unfold CString.memory
  rw [List.length_append,List.length_singleton]

theorem memory_replicate {s : CString} {n : Nat} {c : UInt8} (chars : s.chars = List.replicate n c) :
    s.memory.length = n+1 := by
  rw [memory_length,chars,List.length_replicate]

private theorem memory_ne (s : CString) : s.memory ≠ [] := by
  unfold CString.memory
  simp

/-- A length that an `int` holds and that covers the string was not cut off. -/
private theorem uncut {s : CString} {size : Nat} (covers : s.chars.length ≤ size) (small : size < 2^31)
    (same : size = s.memory.length%2^32) : size = s.memory.length := by
  rw [memory_length] at *
  omega

include bound in
theorem reads_recvStr {s : CString} (fits : s.memory.length ≤ limit) :
    Reads (recvStr refused) (intBytes (lenOf s.memory) ++ s.memory) (some s.chars) := by
  have reads := (reads_recvArr bound (memory_ne s) fits).map fun got => got.2.map stringAt
  rw [map_some,stringAt_memory] at reads
  exact reads

theorem reads_recvStr_none : Reads (recvStr refused) (intBytes 0) none := by
  have reads : Reads (recvArr refused) (intBytes 0) (0,none) := reads_recvArr_nil
  exact reads.map fun got => got.2.map stringAt

private theorem recvStr_eq (stream : Bytes) :
    recvStr refused stream = (recvArr refused stream).bind fun got => some (got.1.2.map stringAt,got.2) := rfl

include bound in
theorem recvStr_fits {s : CString} {rest rest' : Bytes}
    (got : recvStr refused (intBytes (lenOf s.memory) ++ rest) = some (some s.chars,rest')) :
    s.memory.length ≤ limit := by
  rw [recvStr_eq] at got
  obtain ⟨⟨⟨len,buf⟩,behind⟩,read,same⟩ := bind_eq_some_iff.mp got
  cases buf with
  | none => cases same
  | some buf =>
    obtain ⟨-,size,within⟩ := recvArr_some bound read
    have string : stringAt buf = s.chars := by
      simp only [map_some,some.injEq,Prod.mk.injEq] at same
      exact same.1
    have covers := stringAt_length buf
    rw [string,size] at covers
    have small := bound.int
    have whole := uncut covers (by omega) (lenOf_toNat s.memory)
    omega

private theorem recvStrs_cons (num : Nat) :
    recvStrs refused (num+1) = readAll (fun _ => recvStr refused) (() :: List.replicate num ()) := rfl

private theorem sendStrs_cons (str : Option CString) (rest : List (Option CString)) :
    Core.sendStrs (str :: rest) =
      (Core.gSendStr str).bind fun first => (Core.sendStrs rest).bind fun others => some (first ++ others) := rfl

private theorem gSendStr_none : Core.gSendStr none = some (intBytes 0) := gWrite_int writes_core 0

include bound in
private theorem gSendStr_some {s : CString} (fits : s.memory.length ≤ limit) :
    Core.gSendStr (some s) = some (intBytes (lenOf s.memory) ++ s.memory) :=
  sendArr_all writes_core (Nat.lt_of_le_of_lt fits bound.int)

include bound in
theorem reads_recvStrs {argv : List CString} (fits : ∀ s ∈ argv, s.memory.length ≤ limit) :
    ∃ written, Core.sendStrs (argv.map some ++ [none]) = some written ∧
      Reads (recvStrs refused (argv.length+1)) written (argv.map (some ·.chars) ++ [none]) := by
  induction argv with
  | nil =>
    refine ⟨intBytes 0 ++ [],?_,?_⟩
    · rw [List.map_nil,List.nil_append,sendStrs_cons,gSendStr_none]
      rfl
    · exact reads_recvStr_none.readAll_cons (reads_readAll_nil _)
  | cons s rest ih =>
    obtain ⟨first,others⟩ := forall_mem_cons.mp fits
    obtain ⟨written,sent,reads⟩ := ih others
    refine ⟨intBytes (lenOf s.memory) ++ s.memory ++ written,?_,?_⟩
    · rw [List.map_cons,List.cons_append,sendStrs_cons,gSendStr_some bound first,sent]
      rfl
    · rw [List.length_cons,recvStrs_cons]
      apply Reads.readAll_cons
      · exact reads_recvStr bound first
      · exact reads

include bound in
theorem recvStrs_fits {argv : List CString} {written rest rest' : Bytes}
    (sent : Core.sendStrs (argv.map some ++ [none]) = some written)
    (got : recvStrs refused (argv.length+1) (written ++ rest) = some (argv.map (some ·.chars) ++ [none],rest')) :
    ∀ s ∈ argv, s.memory.length ≤ limit := by
  induction argv generalizing written with
  | nil =>
    intro s inside
    cases inside
  | cons s others ih =>
    rw [List.map_cons,List.cons_append,sendStrs_cons] at sent
    obtain ⟨first,sentFirst,behind⟩ := bind_eq_some_iff.mp sent
    obtain ⟨back,sentOthers,same⟩ := bind_eq_some_iff.mp behind
    cases same
    obtain ⟨body,head⟩ := sendArr_head writes_core sentFirst
    rw [List.length_cons,recvStrs_cons,List.map_cons,List.cons_append] at got
    obtain ⟨middle,gotFirst,gotOthers⟩ := readAll_head got
    have fits : s.memory.length ≤ limit := by
      rw [head,append_assoc,append_assoc] at gotFirst
      exact recvStr_fits bound gotFirst
    rw [gSendStr_some bound fits] at sentFirst
    cases sentFirst
    have whole := reads_recvStr bound fits (back ++ rest)
    rw [← append_assoc] at whole
    have next := whole.symm.trans gotFirst
    simp only [Option.some.injEq,Prod.mk.injEq,true_and] at next
    rw [← next] at gotOthers
    exact forall_mem_cons.mpr ⟨fits,ih sentOthers gotOthers⟩

private theorem recvStrArr_eq (num : CInt) (rest : Bytes) :
    recvStrArr refused (intBytes num ++ rest) =
      if num = 0 then some ((num,none),rest)
      else if num.toInt < 0 then none
      else (recvStrs refused num.toNat rest).bind fun got => some ((num,some got.1),got.2) := by
  have step : recvStrArr refused (intBytes num ++ rest) =
      (recvInt (intBytes num ++ rest)).bind fun got =>
        (if got.1 = 0 then pure (got.1,none)
          else if got.1.toInt < 0 then failure
          else do let argv ← recvStrs refused got.1.toNat; return (got.1,some argv) :
            Reader UInt8 (CInt × Option (List (Option Bytes)))) got.2 := rfl
  rw [step,reads_recvInt num rest,bind_some]
  dsimp only
  split_ifs
  · rfl
  · rfl
  · rfl

/-- The number in front of an array of strings. -/
def argvLen (argv : List CString) : CInt := BitVec.ofNat 32 argv.length+1

theorem argvLen_toNat (argv : List CString) : (argvLen argv).toNat = (argv.length+1)%2^32 := by
  unfold argvLen
  rw [BitVec.toNat_add,BitVec.toNat_ofNat]
  simp

theorem gSendArgv_some (argv : List CString) :
    Core.gSendArgv (some argv) =
      (Core.sendStrs (if (argvLen argv).toInt < 0 then [] else (argv.map some ++ [none]).take (argvLen argv).toNat)).bind
        fun body => some (intBytes (argvLen argv) ++ body) := by
  unfold Core.gSendArgv Core.gSendStrArr
  dsimp only
  rw [gWrite_int writes_core]
  rfl

private theorem take_all {argv : List CString} (few : argv.length+1 < 2^31) :
    (if (argvLen argv).toInt < 0 then [] else (argv.map some ++ [none]).take (argvLen argv).toNat) =
      argv.map some ++ [none] := by
  have size := argvLen_toNat argv
  have nonneg : 0 ≤ (argvLen argv).toInt := (toInt_nonneg_iff _).mpr (by omega)
  rw [if_neg (by omega),List.take_of_length_le]
  simp
  omega

include bound in
theorem reads_recvStrArr {argv : List CString} (few : argv.length+1 < 2^31)
    (fits : ∀ s ∈ argv, s.memory.length ≤ limit) :
    ∃ written, Core.gSendArgv (some argv) = some written ∧
      Reads (recvStrArr refused) written (argvLen argv,some (argv.map (some ·.chars) ++ [none])) := by
  obtain ⟨body,sent,reads⟩ := reads_recvStrs bound fits
  have size : (argvLen argv).toNat = argv.length+1 := by
    rw [argvLen_toNat]
    omega
  refine ⟨intBytes (argvLen argv) ++ body,?_,?_⟩
  · rw [gSendArgv_some,take_all few,sent]
    rfl
  · intro rest
    have nonneg : 0 ≤ (argvLen argv).toInt := (toInt_nonneg_iff _).mpr (by omega)
    have nonzero : argvLen argv ≠ 0 := by
      intro zero
      rw [zero] at size
      cases size
    rw [append_assoc,recvStrArr_eq,if_neg nonzero,if_neg (by omega),size,reads rest]
    rfl

include bound in
theorem recvStrArr_fits {argv : List CString} {written rest rest' : Bytes} {num : CInt}
    (sent : Core.gSendArgv (some argv) = some written)
    (got : recvStrArr refused (written ++ rest) = some ((num,some (argv.map (some ·.chars) ++ [none])),rest')) :
    argv.length+1 < 2^31 ∧ ∀ s ∈ argv, s.memory.length ≤ limit := by
  rw [gSendArgv_some] at sent
  obtain ⟨body,sentBody,same⟩ := bind_eq_some_iff.mp sent
  cases same
  rw [append_assoc,recvStrArr_eq] at got
  split_ifs at got with zero negative
  · cases got
  · obtain ⟨⟨strs,behind⟩,read,same⟩ := bind_eq_some_iff.mp got
    simp only [some.injEq,Prod.mk.injEq] at same
    obtain ⟨⟨-,all⟩,-⟩ := same
    subst all
    have count := readAll_length read
    rw [List.length_append,List.length_map,List.length_singleton,List.length_replicate] at count
    have few : argv.length+1 < 2^31 := by
      rw [count]
      exact (toInt_nonneg_iff _).mp (by omega)
    rw [take_all few] at sentBody
    rw [← count] at read
    exact ⟨few,recvStrs_fits bound sentBody read⟩

end

/-- Which programs have the functions for a value. -/
def speaks : Program → Item → Bool
  | .core,_ => true
  | _,.int _ | _,.cmd _ | _,.str _ | _,.strBuf _ | _,.arr _ | _,.arrBuf _ => true
  | .config,.nStr _ | .config,.nStrBuf _ => true
  | _,_ => false

def hears : Program → Item → Bool
  | .core,_ => true
  | _,.int _ | _,.str _ | _,.nStr _ => true
  | .greeter,.arr _ | .greeter,.strArr _ => true
  | .config,.cmd _ => true
  | _,_ => false

/-- The value as the other side should have it. -/
def value : Item → Received
  | .int val => .int val
  | .cmd val => .int val
  | .str s => .str (s.map (·.chars))
  | .nStr s => .str (some s.chars)
  | .strBuf s => .strBuf (s.elim 0 (lenOf ·.memory)) (s.map (·.chars))
  | .nStrBuf s => .strBuf (lenOf s.memory) (some s.chars)
  | .arr data => .arr (lenOf data) (if data = [] then none else some data)
  | .arrBuf data => .arr (lenOf data) (if data = [] then none else some data)
  | .strArr argv => .strArr (argv.elim 0 argvLen) (argv.map fun argv => argv.map (some ·.chars) ++ [none])
  | .argv argv => .argv (argv.map fun argv => argv.map (some ·.chars) ++ [none])

/-- The most bytes that a program takes for one value. -/
def limitOf : Program → Nat
  | .core => 0x10000
  | .greeter => 2^31-1
  | .config => 2^31-1

def limitBuf : Nat := 0xffff

/-- No length is over the limit of the reader; for strings it includes the zero at the end. -/
def fits (reader : Program) : Item → Prop
  | .int _ => True
  | .cmd _ => True
  | .str s => ∀ t ∈ s, t.memory.length ≤ limitOf reader
  | .nStr s => s.memory.length ≤ limitOf reader
  | .strBuf s => ∀ t ∈ s, t.memory.length ≤ limitBuf
  | .nStrBuf s => s.memory.length ≤ limitBuf
  | .arr data => data.length ≤ limitOf reader
  | .arrBuf data => data.length ≤ limitBuf
  | .strArr argv => ∀ strs ∈ argv, strs.length+1 < 2^31 ∧ ∀ s ∈ strs, s.memory.length ≤ limitOf reader
  | .argv argv => ∀ strs ∈ argv, strs.length+1 < 2^31 ∧ ∀ s ∈ strs, s.memory.length ≤ limitOf reader

/-- Bytes that are sent with their length in front. -/
structure Framed (sent : Option Bytes) (body : Bytes) : Prop where
  whole : body.length < 2^31 → sent = some (intBytes (lenOf body) ++ body)
  head : ∀ written, sent = some written → ∃ rest, written = intBytes (lenOf body) ++ rest

def SentStr (sent : Option Bytes) : Option CString → Prop
  | none => sent = some (intBytes 0)
  | some s => Framed sent s.memory

/-- What a value looks like in the stream. -/
def Sent (sent : Option Bytes) : Item → Prop
  | .int val => sent = some (intBytes val)
  | .cmd val => sent = some (intBytes val)
  | .str s => SentStr sent s
  | .nStr s => Framed sent s.memory
  | .strBuf s => SentStr sent s
  | .nStrBuf s => Framed sent s.memory
  | .arr data => Framed sent data
  | .arrBuf data => Framed sent data
  | .strArr argv => sent = Core.gSendArgv argv
  | .argv argv => sent = Core.gSendArgv argv

section
variable {gWrite : Bytes → CInt → Option Bytes} (writes : Writes gWrite)
include writes

private theorem framed_sendArr (body : Bytes) : Framed (sendArr gWrite (lenOf body) body) body :=
  ⟨fun small => sendArr_all writes small,fun _ sent => sendArr_head writes sent⟩

private theorem framed_sendNStr (s : CString) : Framed (sendNStr gWrite s.chars (lenOf s.chars)) s.memory :=
  ⟨fun small => sendNStr_all writes small,fun _ sent => sendNStr_head writes sent⟩

private theorem sent_str (s : Option CString) : SentStr (sendStr gWrite s) s := by
  cases s with
  | none => exact gWrite_int writes 0
  | some s => exact framed_sendArr writes s.memory

end

private theorem greeter_gSendStr (s : Option CString) : Greeter.gSendStr s = sendStr Helper.gWrite s := by
  cases s with
  | none =>
    have empty : sendArr Helper.gWrite (lenOf []) [] = some (intBytes (lenOf []) ++ []) :=
      sendArr_all writes_helper (by decide)
    exact empty.trans (gWrite_int writes_helper 0).symm
  | some s => rfl

private theorem greeter_str (s : Option CString) : SentStr (Greeter.gSendStr s) s := by
  rw [greeter_gSendStr]
  exact sent_str writes_helper s

theorem send_sent {writer : Program} {item : Item} (spoken : speaks writer item = true) :
    Sent (send writer item) item := by
  cases writer with
  | core =>
    cases item with
    | int val => exact gWrite_int writes_core val
    | cmd val => exact gWrite_int writes_core val
    | str s => exact sent_str writes_core s
    | nStr s => exact framed_sendNStr writes_core s
    | strBuf s => exact sent_str writes_core s
    | nStrBuf s => exact framed_sendNStr writes_core s
    | arr data => exact framed_sendArr writes_core data
    | arrBuf data => exact framed_sendArr writes_core data
    | strArr argv => rfl
    | argv argv => rfl
  | greeter =>
    cases item with
    | int val => exact gWrite_int writes_helper val
    | cmd val => exact gWrite_int writes_helper val
    | str s => exact greeter_str s
    | strBuf s => exact greeter_str s
    | arr data => exact framed_sendArr writes_helper data
    | arrBuf data => exact framed_sendArr writes_helper data
    | nStr s => cases spoken
    | nStrBuf s => cases spoken
    | strArr argv => cases spoken
    | argv argv => cases spoken
  | config =>
    cases item with
    | int val => exact gWrite_int writes_helper val
    | cmd val => exact gWrite_int writes_helper val
    | str s => exact sent_str writes_helper s
    | nStr s => exact framed_sendNStr writes_helper s
    | strBuf s => exact sent_str writes_helper s
    | nStrBuf s => exact framed_sendNStr writes_helper s
    | arr data => exact framed_sendArr writes_helper data
    | arrBuf data => exact framed_sendArr writes_helper data
    | strArr argv => cases spoken
    | argv argv => cases spoken

/-- A reader takes a value exactly if a condition holds. -/
structure Takes {α : Type} (sent : Option Bytes) (read : Reader UInt8 α) (value : α) (condition : Prop) : Prop where
  reads : condition → ∃ written, sent = some written ∧ Reads read written value
  only : ∀ {written rest rest' : Bytes}, sent = some written → read (written ++ rest) = some (value,rest') → condition

private theorem Takes.map {α γ : Type} {sent : Option Bytes} {read : Reader UInt8 α} {value : α} {condition : Prop}
    (takes : Takes sent read value condition) {f : α → γ} (injective : ∀ a, f a = f value → a = value) :
    Takes sent (f <$> read) (f value) condition := by
  constructor
  · intro holds
    obtain ⟨written,same,reads⟩ := takes.reads holds
    exact ⟨written,same,reads.map f⟩
  · intro written rest rest' same got
    have step : (f <$> read) (written ++ rest) = (read (written ++ rest)).bind fun found => some (f found.1,found.2) :=
      rfl
    rw [step] at got
    obtain ⟨⟨found,left⟩,read',equal⟩ := bind_eq_some_iff.mp got
    simp only [some.injEq,Prod.mk.injEq] at equal
    rw [injective found equal.1] at read'
    exact takes.only same read'

private theorem takes_int {sent : Option Bytes} {val : CInt} (same : sent = some (intBytes val)) :
    Takes sent recvInt val True :=
  ⟨fun _ => ⟨_,same,reads_recvInt val⟩,fun _ _ => trivial⟩

section
variable {sent : Option Bytes} {refused : CInt → Bool} {limit : Nat} (bound : Limit refused limit)
include bound

private theorem takes_arr {data : Bytes} (framed : Framed sent data) :
    Takes sent (recvArr refused) (lenOf data,if data = [] then none else some data) (data.length ≤ limit) := by
  constructor
  · intro fits
    refine ⟨_,framed.whole (Nat.lt_of_le_of_lt fits bound.int),?_⟩
    by_cases empty : data = []
    · subst empty
      exact reads_recvArr_nil
    · rw [if_neg empty]
      exact reads_recvArr bound empty fits
  · intro written rest rest' same got
    by_cases empty : data = []
    · rw [empty]
      exact Nat.zero_le _
    · rw [if_neg empty] at got
      obtain ⟨body,head⟩ := framed.head written same
      rw [head,append_assoc] at got
      obtain ⟨-,size,within⟩ := recvArr_some bound got
      omega

private theorem takes_memory {s : CString} (framed : Framed sent s.memory) :
    Takes sent (recvStr refused) (some s.chars) (s.memory.length ≤ limit) := by
  constructor
  · intro fits
    exact ⟨_,framed.whole (Nat.lt_of_le_of_lt fits bound.int),reads_recvStr bound fits⟩
  · intro written rest rest' same got
    obtain ⟨body,head⟩ := framed.head written same
    rw [head,append_assoc] at got
    exact recvStr_fits bound got

private theorem takes_str {s : Option CString} (str : SentStr sent s) :
    Takes sent (recvStr refused) (s.map (·.chars)) (∀ t ∈ s, t.memory.length ≤ limit) := by
  cases s with
  | none => exact ⟨fun _ => ⟨_,str,reads_recvStr_none⟩,fun _ _ t inside => nomatch inside⟩
  | some s =>
    have takes := takes_memory bound str
    constructor
    · intro fits
      exact takes.reads (fits s rfl)
    · intro written rest rest' same got t inside
      cases inside
      exact takes.only same got

private theorem takes_strArr {argv : Option (List CString)} (same : sent = Core.gSendArgv argv) :
    Takes sent (recvStrArr refused)
      (argv.elim 0 argvLen,argv.map fun argv => argv.map (some ·.chars) ++ [none])
      (∀ strs ∈ argv, strs.length+1 < 2^31 ∧ ∀ s ∈ strs, s.memory.length ≤ limit) := by
  subst same
  cases argv with
  | none =>
    refine ⟨fun _ => ⟨_,gWrite_int writes_core 0,fun rest => ?_⟩,fun _ _ strs inside => nomatch inside⟩
    rw [recvStrArr_eq,if_pos rfl]
    rfl
  | some argv =>
    constructor
    · intro fits
      obtain ⟨few,short⟩ := fits argv rfl
      exact reads_recvStrArr bound few short
    · intro written rest rest' sent got strs inside
      cases inside
      exact recvStrArr_fits bound sent got

end

private theorem takes_strBuf {sent : Option Bytes} {s : Option CString} (str : SentStr sent s) :
    Takes sent Core.gRecvStrBuf (s.elim 0 (lenOf ·.memory),s.map (·.chars)) (∀ t ∈ s, t.memory.length ≤ limitBuf) := by
  have takes := takes_str limit_buf str
  have read : Core.gRecvStrBuf = (fun got => (got.1,got.2.map stringAt)) <$> recvArr Core.tooLongBuf := rfl
  constructor
  · intro fits
    obtain ⟨written,same,-⟩ := takes.reads fits
    refine ⟨written,same,?_⟩
    cases s with
    | none =>
      have zero : written = intBytes 0 := some.inj (same.symm.trans str)
      rw [zero,read]
      exact reads_recvArr_nil.map fun got => (got.1,got.2.map stringAt)
    | some s =>
      have short := fits s rfl
      have whole := same.symm.trans (str.whole (Nat.lt_of_le_of_lt short limit_buf.int))
      rw [some.inj whole,read]
      have reads := (reads_recvArr limit_buf (memory_ne s) short).map fun got => (got.1,got.2.map stringAt)
      rw [map_some,stringAt_memory] at reads
      exact reads
  · intro written rest rest' same got
    have step : Core.gRecvStrBuf (written ++ rest) = (recvArr Core.tooLongBuf (written ++ rest)).bind fun found =>
        some ((found.1.1,found.1.2.map stringAt),found.2) := rfl
    rw [step] at got
    obtain ⟨⟨⟨len,buf⟩,left⟩,found,equal⟩ := bind_eq_some_iff.mp got
    simp only [some.injEq,Prod.mk.injEq] at equal
    have string : recvStr Core.tooLongBuf (written ++ rest) = some (s.map (·.chars),rest') := by
      rw [recvStr_eq,found,bind_some,equal.1.2,equal.2]
    exact takes.only same string

private theorem str_injective {s : Option Bytes} (a : Option Bytes) (same : Received.str a = .str s) : a = s := by
  cases same
  rfl

private theorem int_injective {val : CInt} (a : CInt) (same : Received.int a = .int val) : a = val := by
  cases same
  rfl

private theorem strBuf_injective {got : CInt × Option Bytes} (a : CInt × Option Bytes)
    (same : (fun got : CInt × Option Bytes => Received.strBuf got.1 got.2) a =
      (fun got : CInt × Option Bytes => Received.strBuf got.1 got.2) got) : a = got := by
  obtain ⟨len,s⟩ := Received.strBuf.inj same
  exact Prod.ext len s

private theorem arr_injective {got : CInt × Option Bytes} (a : CInt × Option Bytes)
    (same : (fun got : CInt × Option Bytes => Received.arr got.1 got.2) a =
      (fun got : CInt × Option Bytes => Received.arr got.1 got.2) got) : a = got := by
  obtain ⟨len,data⟩ := Received.arr.inj same
  exact Prod.ext len data

private theorem strArr_injective {got : CInt × Option (List (Option Bytes))} (a : CInt × Option (List (Option Bytes)))
    (same : (fun got : CInt × Option (List (Option Bytes)) => Received.strArr got.1 got.2) a =
      (fun got : CInt × Option (List (Option Bytes)) => Received.strArr got.1 got.2) got) : a = got := by
  obtain ⟨num,argv⟩ := Received.strArr.inj same
  exact Prod.ext num argv

private theorem takes_argv {sent : Option Bytes} {argv : Option (List CString)} (same : sent = Core.gSendArgv argv) :
    Takes sent (Received.argv <$> Core.gRecvArgv) (.argv (argv.map fun argv => argv.map (some ·.chars) ++ [none]))
      (∀ strs ∈ argv, strs.length+1 < 2^31 ∧ ∀ s ∈ strs, s.memory.length ≤ 0x10000) := by
  have takes := takes_strArr limit_core same
  constructor
  · intro fits
    obtain ⟨written,sends,reads⟩ := takes.reads fits
    have read : Reads Core.gRecvArgv (written ++ [])
        (argv.map fun argv => argv.map (some ·.chars) ++ [none]) := reads.bind (reads_pure _)
    rw [List.append_nil] at read
    exact ⟨written,sends,read.map Received.argv⟩
  · intro written rest rest' sends got
    have step : (Received.argv <$> Core.gRecvArgv) (written ++ rest) =
        ((recvStrArr Core.tooLong (written ++ rest)).bind fun found => some (found.1.2,found.2)).bind fun found =>
          some (Received.argv found.1,found.2) := rfl
    rw [step] at got
    obtain ⟨⟨strs,left⟩,found,equal⟩ := bind_eq_some_iff.mp got
    obtain ⟨⟨⟨num,strs'⟩,left'⟩,found',equal'⟩ := bind_eq_some_iff.mp found
    simp only [some.injEq,Prod.mk.injEq,Received.argv.injEq] at equal equal'
    intro all inside
    cases inside
    rw [equal'.1,equal.1,map_some] at found'
    exact recvStrArr_fits limit_core (same ▸ sends) found'

theorem recv_takes {reader : Program} {item : Item} {sent : Option Bytes} (heard : hears reader item = true)
    (arrives : Sent sent item) : Takes sent (recv reader item) (value item) (fits reader item) := by
  cases item with
  | int val =>
    cases reader with
    | core => exact (takes_int arrives).map int_injective
    | greeter => exact (takes_int arrives).map int_injective
    | config => exact (takes_int arrives).map int_injective
  | cmd val =>
    cases reader with
    | core => exact (takes_int arrives).map int_injective
    | greeter => cases heard
    | config => exact (takes_int arrives).map int_injective
  | str s =>
    cases reader with
    | core => exact (takes_str limit_core arrives).map str_injective
    | greeter => exact (takes_str limit_helper arrives).map str_injective
    | config => exact (takes_str limit_helper arrives).map str_injective
  | nStr s =>
    cases reader with
    | core => exact (takes_memory limit_core arrives).map str_injective
    | greeter => exact (takes_memory limit_helper arrives).map str_injective
    | config => exact (takes_memory limit_helper arrives).map str_injective
  | strBuf s =>
    cases reader with
    | core => exact (takes_strBuf arrives).map strBuf_injective
    | greeter => cases heard
    | config => cases heard
  | nStrBuf s =>
    cases reader with
    | core =>
      have takes := (takes_strBuf (s := some s) arrives).map strBuf_injective
      constructor
      · intro short
        apply takes.reads
        intro t inside
        cases inside
        exact short
      · intro written rest rest' same got
        exact takes.only same got s rfl
    | greeter => cases heard
    | config => cases heard
  | arr data =>
    cases reader with
    | core => exact (takes_arr limit_core arrives).map arr_injective
    | greeter => exact (takes_arr limit_helper arrives).map arr_injective
    | config => cases heard
  | arrBuf data =>
    cases reader with
    | core => exact (takes_arr limit_buf arrives).map arr_injective
    | greeter => cases heard
    | config => cases heard
  | strArr argv =>
    cases reader with
    | core => exact (takes_strArr limit_core arrives).map strArr_injective
    | greeter => exact (takes_strArr limit_helper arrives).map strArr_injective
    | config => cases heard
  | argv argv =>
    cases reader with
    | core => exact takes_argv arrives
    | greeter => cases heard
    | config => cases heard

private theorem sendAll_cons (writer : Program) (item : Item) (rest : List Item) :
    sendAll writer (item :: rest) =
      (send writer item).bind fun first => (sendAll writer rest).bind fun others => some (first ++ others) := rfl

theorem reads_recvAll {writer reader : Program} {items : List Item} (spoken : ∀ item ∈ items, speaks writer item = true)
    (heard : ∀ item ∈ items, hears reader item = true) (short : ∀ item ∈ items, fits reader item) :
    ∃ stream, sendAll writer items = some stream ∧ Reads (recvAll reader items) stream (items.map value) := by
  induction items with
  | nil => exact ⟨[],rfl,reads_readAll_nil _⟩
  | cons item rest ih =>
    obtain ⟨first,others⟩ := forall_mem_cons.mp short
    have takes := recv_takes (forall_mem_cons.mp heard).1 (send_sent (forall_mem_cons.mp spoken).1)
    obtain ⟨written,sent,reads⟩ := takes.reads first
    obtain ⟨stream,sentOthers,readsOthers⟩ := ih (forall_mem_cons.mp spoken).2 (forall_mem_cons.mp heard).2 others
    refine ⟨written ++ stream,?_,reads.readAll_cons readsOthers⟩
    rw [sendAll_cons,sent,sentOthers]
    rfl

theorem recvAll_fits {writer reader : Program} {items : List Item} (spoken : ∀ item ∈ items, speaks writer item = true)
    (heard : ∀ item ∈ items, hears reader item = true) {stream rest rest' : Bytes}
    (sent : sendAll writer items = some stream)
    (got : recvAll reader items (stream ++ rest) = some (items.map value,rest')) : ∀ item ∈ items, fits reader item := by
  induction items generalizing stream with
  | nil =>
    intro item inside
    cases inside
  | cons item others ih =>
    have takes := recv_takes (forall_mem_cons.mp heard).1 (send_sent (forall_mem_cons.mp spoken).1)
    rw [sendAll_cons] at sent
    obtain ⟨front,sentFirst,behind⟩ := bind_eq_some_iff.mp sent
    obtain ⟨back,sentOthers,same⟩ := bind_eq_some_iff.mp behind
    cases same
    rw [append_assoc] at got
    obtain ⟨middle,gotFirst,gotOthers⟩ := readAll_head got
    have short := takes.only sentFirst gotFirst
    -- the first value took just its own bytes
    obtain ⟨written,sent',reads⟩ := takes.reads short
    cases sentFirst.symm.trans sent'
    have next := (reads (back ++ rest)).symm.trans gotFirst
    simp only [Option.some.injEq,Prod.mk.injEq,true_and] at next
    rw [← next] at gotOthers
    exact forall_mem_cons.mpr
      ⟨short,ih (forall_mem_cons.mp spoken).2 (forall_mem_cons.mp heard).2 sentOthers gotOthers⟩

/-- All values are sent and received as they are, with just the bytes that were sent for them, exactly if no
    length is over the limit of the reader. -/
theorem recvAll_sendAll_iff {writer reader : Program} {items : List Item}
    (spoken : ∀ item ∈ items, speaks writer item = true) (heard : ∀ item ∈ items, hears reader item = true) :
    (∃ stream, sendAll writer items = some stream ∧ Reads (recvAll reader items) stream (items.map value)) ↔
      ∀ item ∈ items, fits reader item := by
  constructor
  · rintro ⟨stream,sent,reads⟩
    exact recvAll_fits spoken heard sent (reads [])
  · intro short
    exact reads_recvAll spoken heard short

theorem str_left {str : CString} (small : str.memory.length < 2^31) (long : ¬fits .core (.str (some str))) (n : CInt) :
    ∃ stream, sendAll .greeter [.str (some str),.int n] = some stream ∧
      ¬Reads (recvAll .core [.str (some str),.int n]) stream ([.str (some str),.int n].map value) := by
  refine ⟨intBytes (lenOf str.memory) ++ str.memory ++ (intBytes n ++ []),?_,?_⟩
  · rw [sendAll_cons,sendAll_cons]
    have first : send .greeter (.str (some str)) = some (intBytes (lenOf str.memory) ++ str.memory) :=
      sendArr_all writes_helper small
    have second : send .greeter (.int n) = some (intBytes n) := gWrite_int writes_helper n
    rw [first,second]
    rfl
  · intro reads
    obtain ⟨middle,first,-⟩ := readAll_head (reads [])
    have takes : Takes (send .greeter (.str (some str))) (recv .core (.str (some str)))
        (value (.str (some str))) (fits .core (.str (some str))) := recv_takes rfl (send_sent rfl)
    rw [append_assoc] at first
    exact long (takes.only (sendArr_all writes_helper small) first)

def longString : CString := ⟨List.replicate 65536 97,fun inside => absurd (List.eq_of_mem_replicate inside) (by decide)⟩

/-- The core does not take a string of 65536 characters and its zero out of the stream. -/
theorem long_string_left :
    ∃ stream, sendAll .greeter [.str (some longString),.int 5] = some stream ∧
      ¬Reads (recvAll .core [.str (some longString),.int 5]) stream
        ([.str (some longString),.int 5].map value) := by
  have length : longString.memory.length = 65536+1 := memory_replicate rfl
  refine str_left (by rw [length]; decide) (fun short => ?_) 5
  have few := short longString rfl
  rw [length] at few
  exact absurd few (by decide)

theorem recvAll_sendAll_iff_some :
    ∃ stream, sendAll .core [.str none,.argv (some [⟨[97,98],by decide⟩]),.arr []] = some stream ∧
      Reads (recvAll .core [.str none,.argv (some [⟨[97,98],by decide⟩]),.arr []]) stream
        ([.str none,.argv (some [⟨[97,98],by decide⟩]),.arr []].map value) := by
  apply (recvAll_sendAll_iff (by decide) (by decide)).mpr
  simp [fits,limitOf,CString.memory]

end KdeWorkspace.PipeRoundTrip
