import KdeWorkspace.SessionList
import Mathlib.Data.List.TakeDrop

/-!
`KDisplayManager::localSessions` reads back the sessions that kdm has listed, as long as no name was
cut and there was something to list. An empty reply ends before the place where reading begins, which
then holds whatever the buffer held before.
-/
namespace KdeWorkspace.SessionList
open List
open PipeCodec (Bytes CInt stringAt)

theorem makeRoom_prefix (fresh : Nat → Nat → UInt8) (buf : Bytes) (len : Nat) :
    ∃ more, makeRoom fresh buf len = buf ++ more := by
  unfold makeRoom resize
  split
  · exact ⟨_,rfl⟩
  · split
    · exact ⟨_,rfl⟩
    · exact ⟨[],(append_nil buf).symm⟩

theorem makeRoom_space (fresh : Nat → Nat → UInt8) {buf : Bytes} {len : Nat} (within : len ≤ buf.length) :
    len < (makeRoom fresh buf len).length := by
  unfold makeRoom resize
  split
  · simp; omega
  · split
    · simp; omega
    · omega

theorem makeRoom_least (fresh : Nat → Nat → UInt8) (buf : Bytes) (len : Nat) :
    128 ≤ (makeRoom fresh buf len).length := by
  unfold makeRoom resize
  split
  · simp; omega
  · split
    · simp; omega
    · omega

theorem makeRoom_short (fresh : Nat → Nat → UInt8) {buf : Bytes} {len : Nat} (large : 128 ≤ buf.length)
    (short : len ≤ 64) : makeRoom fresh buf len = buf := by
  unfold makeRoom
  rw [if_neg (by omega),if_neg (by omega)]

/-- Whatever the chunks, `exec` leaves the line in the buffer with a zero at its end. What comes after
    a short one is what was there. -/
theorem exec_line (sizes : Nat → Nat) (fresh : Nat → Nat → UInt8) {body : Bytes} (line : newline ∉ body)
    (consumed rest tail : Bytes) (split : body ++ [newline] = consumed ++ rest) (more : rest ≠ []) :
    ∃ after, exec sizes fresh rest (consumed ++ tail) consumed.length =
        (isOk (body ++ 0 :: after) (body.length+1),body ++ 0 :: after) ∧
      (body.length < 64 → after = (makeRoom fresh (consumed ++ tail) consumed.length).drop (body.length+1)) := by
  induction left : rest.length using Nat.strongRecOn generalizing consumed rest tail with
  | ind count ih =>
    obtain ⟨grown,room⟩ := makeRoom_prefix fresh (consumed ++ tail) consumed.length
    have space : consumed.length < (makeRoom fresh (consumed ++ tail) consumed.length).length :=
      makeRoom_space fresh (by simp)
    have least := makeRoom_least fresh (consumed ++ tail) consumed.length
    have some_left := length_pos_iff.mpr more
    obtain ⟨tl,got⟩ : ∃ tl, readSize sizes consumed.length
        ((makeRoom fresh (consumed ++ tail) consumed.length).length-consumed.length) rest.length = tl := ⟨_,rfl⟩
    have positive : tl ≠ 0 := by
      unfold readSize at got
      omega
    have within : tl ≤ rest.length := by
      rw [← got]
      exact readSize_le ..
    have now : (makeRoom fresh (consumed ++ tail) consumed.length).take consumed.length = consumed := by
      rw [room,append_assoc]
      exact take_left
    have upto : (consumed ++ rest.take tl).length = consumed.length+tl := by simp [within]
    have whole : body ++ [newline] = (consumed ++ rest.take tl) ++ rest.drop tl := by
      rw [append_assoc,take_append_drop,split]
    rw [exec]
    simp only [got,if_neg positive,now]
    by_cases last : rest.drop tl = []
    · rw [last,append_nil] at whole
      have total : consumed.length+tl = body.length+1 := by
        rw [← upto,← whole]
        simp
      rw [← whole,total,if_pos (by simp)]
      refine ⟨(makeRoom fresh (consumed ++ tail) consumed.length).drop (body.length+1),?_,fun _ => rfl⟩
      simp
    · obtain ⟨front,read⟩ : ∃ front, body = (consumed ++ rest.take tl) ++ front := by
        obtain ⟨front,final,ends⟩ := eq_nil_or_concat _ |>.resolve_left last
        rw [ends,concat_eq_append,← append_assoc] at whole
        exact ⟨front,(append_inj' whole rfl).1⟩
      have unfinished : ((consumed ++ rest.take tl) ++
          (makeRoom fresh (consumed ++ tail) consumed.length).drop (consumed.length+tl))[consumed.length+tl-1]? ≠
            some newline := by
        intro ended
        rw [getElem?_append_left (by omega)] at ended
        apply line
        rw [read]
        exact mem_append_left _ (mem_of_getElem? ended)
      have fewer : (rest.drop tl).length < count := by
        rw [length_drop]
        omega
      obtain ⟨after,result,short⟩ := ih _ fewer _ _
        ((makeRoom fresh (consumed ++ tail) consumed.length).drop (consumed.length+tl)) whole last rfl
      rw [upto] at result short
      rw [if_neg unfinished]
      refine ⟨after,result,?_⟩
      intro small
      have bound : consumed.length+tl ≤ body.length := by
        rw [read,length_append]
        omega
      have enough : 128 ≤ ((consumed ++ rest.take tl) ++
          (makeRoom fresh (consumed ++ tail) consumed.length).drop (consumed.length+tl)).length := by
        rw [length_append,upto,length_drop]
        omega
      rw [short small,makeRoom_short _ enough (by omega),drop_append,
        drop_eq_nil_of_le (by omega),nil_append,drop_drop,upto]
      congr 1
      omega

/-- What no name and no field contains. -/
def Clean (str : Bytes) : Prop := ∀ c ∈ str, c ≠ 0 ∧ c ≠ tab ∧ c ≠ newline ∧ c ≠ comma

theorem Clean.nil : Clean [] := List.forall_mem_nil _

theorem Clean.append {l₁ l₂ : Bytes} (first : Clean l₁) (second : Clean l₂) : Clean (l₁ ++ l₂) := by
  intro c inside
  rcases mem_append.mp inside with inside | inside
  · exact first c inside
  · exact second c inside

theorem Clean.take {str : Bytes} (clean : Clean str) (max : Nat) : Clean (strCatL str max) :=
  fun c inside => clean c (mem_of_mem_take inside)

theorem Clean.drop {str : Bytes} (clean : Clean str) (count : Nat) : Clean (str.drop count) :=
  fun c inside => clean c (mem_of_mem_drop inside)

theorem clean_ofOption (name : Option Name) : Clean (Name.ofOption name) := by
  cases name with
  | none => exact Clean.nil
  | some name => exact name.clean

/-- A digit as a character. -/
def numeral (d : Nat) : UInt8 := UInt8.ofNat (48+d)

theorem numeral_toNat {d : Nat} (small : d < 10) : (numeral d).toNat = 48+d := by
  simp only [numeral,UInt8.toNat_ofNat']
  omega

theorem isDigit_numeral {d : Nat} (small : d < 10) : isDigit (numeral d) = true := by
  have value := numeral_toNat small
  simp only [isDigit,Bool.and_eq_true,decide_eq_true_eq,UInt8.le_iff_toNat_le,value]
  exact ⟨by simp,by simp; omega⟩

theorem isDigit_clean {c : UInt8} (digit : isDigit c = true) :
    (c ≠ 0 ∧ c ≠ tab ∧ c ≠ newline ∧ c ≠ comma) ∧ isSpace c = false ∧ c ≠ byte '-' ∧ c ≠ byte '+' := by
  have other : ∀ k : UInt8, isDigit k = false → c ≠ k := by
    rintro k no rfl
    rw [digit] at no
    cases no
  refine ⟨⟨other 0 rfl,other tab rfl,other newline rfl,other comma rfl⟩,?_,other _ rfl,other _ rfl⟩
  simp only [isDigit,Bool.and_eq_true,decide_eq_true_eq,UInt8.le_iff_toNat_le] at digit
  have large : ¬ c ≤ 13 := by
    rw [UInt8.le_iff_toNat_le]
    simp at digit ⊢
    omega
  simp [isSpace,large,other 32 rfl]

/-- The digits of a number, as `%d` writes them. -/
def numerals (n : Nat) : Bytes := ((Nat.digits 10 n).map numeral).reverse

theorem decimal_eq (n : Int) : decimal n = (if n < 0 then [byte '-'] else []) ++ numerals n.natAbs := rfl

theorem numerals_digit {n : Nat} : ∀ c ∈ numerals n, isDigit c = true := by
  intro c inside
  simp only [numerals,mem_reverse,mem_map] at inside
  obtain ⟨d,digit,rfl⟩ := inside
  exact isDigit_numeral (Nat.digits_lt_base (by omega) digit)

theorem toNat_numerals (n : Nat) : toNat (numerals n) = n := by
  have small : ∀ d ∈ Nat.digits 10 n, d < 10 := fun d digit => Nat.digits_lt_base (by omega) digit
  have fold : ∀ ds : List Nat, (∀ d ∈ ds, d < 10) →
      (ds.map numeral).foldr (fun c n => n*10+(c.toNat-48)) 0 = Nat.ofDigits 10 ds := by
    intro ds
    induction ds with
    | nil => intro; rfl
    | cons d ds ih =>
      intro small
      rw [map_cons,foldr_cons,ih (fun d inside => small d (mem_cons_of_mem _ inside)),
        numeral_toNat (small d mem_cons_self),Nat.ofDigits_cons]
      simp
      omega
  rw [toNat,numerals,foldl_reverse,fold _ small,Nat.ofDigits_digits]

theorem numerals_ne_nil {n : Nat} (positive : n ≠ 0) : numerals n ≠ [] := by
  simp [numerals,Nat.digits_ne_nil_iff_ne_zero,positive]

theorem trimmed_eq {c : UInt8} {digits : Bytes} (notSpace : isSpace c = false)
    (digit : ∀ c ∈ digits, isDigit c = true) :
    (((c :: digits).dropWhile isSpace).reverse.dropWhile isSpace).reverse = c :: digits := by
  have ends : ((c :: digits).reverse.dropWhile isSpace) = (c :: digits).reverse := by
    obtain ⟨last,others,reversed⟩ := exists_cons_of_ne_nil (l := (c :: digits).reverse) (by simp)
    have inside : last ∈ c :: digits := by
      rw [← mem_reverse,reversed]
      exact mem_cons_self
    have solid : isSpace last = false := by
      rcases mem_cons.mp inside with rfl | inside
      · exact notSpace
      · exact (isDigit_clean (digit last inside)).2.1
    rw [reversed,dropWhile_cons_of_neg (by simp [solid])]
  rw [dropWhile_cons_of_neg (by simp [notSpace]),ends,reverse_reverse]

theorem toInt_decimal {vt : CInt} (nonzero : vt ≠ 0) : toInt (decimal vt.toInt) = vt := by
  have lower := BitVec.le_toInt vt
  have upper := BitVec.toInt_lt (x := vt)
  have notZero : vt.toInt ≠ 0 := fun zero => nonzero (BitVec.eq_of_toInt_eq zero)
  have back : BitVec.ofInt 32 vt.toInt = vt := BitVec.ofInt_toInt
  obtain ⟨c,others,written⟩ := exists_cons_of_ne_nil (numerals_ne_nil (n := vt.toInt.natAbs) (by omega))
  have digits : ∀ x ∈ c :: others, isDigit x = true := written ▸ numerals_digit
  have value : toNat (c :: others) = vt.toInt.natAbs := written ▸ toNat_numerals _
  have allDigits : (c :: others).all isDigit = true := all_eq_true.mpr digits
  obtain ⟨-,first,notMinus,notPlus⟩ := isDigit_clean (digits c mem_cons_self)
  rw [decimal_eq,written]
  by_cases negative : vt.toInt < 0
  · have minus : isSpace (byte '-') = false := by decide
    have number : -((toNat (c :: others) : Nat) : Int) = vt.toInt := by omega
    rw [if_pos negative,singleton_append,toInt,trimmed_eq minus digits]
    simp only [if_true,number]
    rw [if_pos ⟨by simp,allDigits,by omega,by omega⟩,back]
  · have number : ((toNat (c :: others) : Nat) : Int) = vt.toInt := by omega
    rw [if_neg negative,nil_append,toInt,trimmed_eq first fun x inside => digits x (mem_cons_of_mem _ inside)]
    simp only [if_neg notMinus,if_neg notPlus,number]
    rw [if_pos ⟨by simp,allDigits,by omega,by omega⟩]
    simp

theorem toInt_nil : toInt [] = 0 := rfl

/-- A session as the names cut to the room they have show it. -/
def shown (m : Manager) (d : Option Display) : Session → SessEnt
  | .x di =>
    { sessionOf m d (.x di) with
      display := strCatL (displayName di) 512,
      user := if isRemote m di then [] else strCatL (Name.ofOption di.userName) 204,
      session := if isRemote m di then strCatL di.remoteHost.chars 341 else strCatL (Name.ofOption di.sessName) 204 }
  | .tty ut => sessionOf m d (.tty ut)

theorem shown_eq_iff (m : Manager) (d : Option Display) (s : Session) : shown m d s = sessionOf m d s ↔ Fits m s := by
  cases s with
  | tty ut => simp [shown,Fits]
  | x di =>
    unfold shown Fits sessionOf strCatL
    by_cases remote : isRemote m di
    · simp [remote,take_eq_self_iff]
    · simp [remote,take_eq_self_iff]

/-- The fields of the record of a session, the separators left out. -/
def fields (m : Manager) (d : Option Display) : Session → List Bytes
  | .x di =>
    [strCatL (displayName di) 512,
      vtField m di.serverVT,
      if isRemote m di then [] else strCatL (Name.ofOption di.userName) 204,
      if isRemote m di then strCatL di.remoteHost.chars 341 else strCatL (Name.ofOption di.sessName) 204,
      (if isSelf d di then [byte '*'] else []) ++ (if sessionGuarded m d di then [byte '!'] else [])]
  | .tty ut =>
    [ut.ut_line.chars,
      vtField m (TTYtoVT ut.ut_line.chars),
      ut.ut_user.chars,
      [],
      [byte 't'] ++ (if loginGuarded m d ut.ut_user.chars then [byte '!'] else [])]

theorem listed_tty {m : Manager} {ut : Utmp} (listed : Session.tty ut ∈ listSessions m) :
    ut.userProcess = true ∧ ut.ut_host.chars = [] := by
  simp only [listSessions,mem_append,mem_map,mem_filter] at listed
  rcases listed with ⟨di,_,impossible⟩ | ⟨ut',⟨-,passed⟩,same⟩
  · cases impossible
  · cases same
    simp only [listedLogin,Bool.and_eq_true,decide_eq_true_eq] at passed
    exact ⟨passed.1.1.1.1,passed.1.1.2⟩

theorem emit_eq {m : Manager} {s : Session} (listed : s ∈ listSessions m) (d : Option Display) :
    emit m d s = tab :: [comma].intercalate (fields m d s) := by
  cases s with
  | x di =>
    unfold emit emitXSessC fields
    by_cases remote : isRemote m di
    · simp [remote]
    · simp [remote]
  | tty ut =>
    obtain ⟨user,host⟩ := listed_tty listed
    have line : strCatL ut.ut_line.chars 32 = ut.ut_line.chars := take_of_length_le ut.line_fits
    simp [emit,emitTTYSessC,fields,userOf,user,host,line]

theorem clean_vtField (m : Manager) (vt : CInt) : Clean (vtField m vt) := by
  unfold vtField
  split
  · have word : Clean (text "vt") := by
      unfold Clean
      decide +kernel
    have sign : Clean (if vt.toInt < 0 then [byte '-'] else []) := by
      unfold Clean
      split
      · decide +kernel
      · decide +kernel
    rw [decimal_eq]
    exact word.append (sign.append fun c digit => (isDigit_clean (numerals_digit c digit)).1)
  · exact Clean.nil

theorem clean_displayName (di : Display) : Clean (displayName di) := by
  have name : Clean di.name.chars := di.name.clean
  unfold displayName
  split
  · exact name.drop 9
  · exact name

theorem clean_fields (m : Manager) (d : Option Display) (s : Session) : ∀ field ∈ fields m d s, Clean field := by
  have host (di : Display) : Clean di.remoteHost.chars := di.remoteHost.clean
  cases s with
  | x di =>
    intro field inside
    simp only [fields,mem_cons,not_mem_nil,or_false] at inside
    rcases inside with rfl | rfl | rfl | rfl | rfl
    · exact (clean_displayName di).take 512
    · exact clean_vtField m _
    · split
      · exact Clean.nil
      · exact (clean_ofOption _).take 204
    · split
      · exact (host di).take 341
      · exact (clean_ofOption _).take 204
    · unfold Clean
      cases isSelf d di <;> cases sessionGuarded m d di <;> decide +kernel
  | tty ut =>
    intro field inside
    simp only [fields,mem_cons,not_mem_nil,or_false] at inside
    rcases inside with rfl | rfl | rfl | rfl | rfl
    · exact ut.ut_line.clean
    · exact clean_vtField m _
    · exact ut.ut_user.clean
    · exact Clean.nil
    · unfold Clean
      cases loginGuarded m d ut.ut_user.chars <;> decide +kernel

/-- The number after the `vt` is read back, and a missing one is zero. -/
theorem toInt_vtField (m : Manager) (vt : CInt) : toInt ((vtField m vt).drop 2) = if m.HAVE_VTS then vt else 0 := by
  unfold vtField
  by_cases vts : m.HAVE_VTS = true
  · by_cases zero : vt = 0
    · simp [vts,zero,toInt_nil]
    · rw [if_pos ⟨vts,zero⟩,if_pos vts]
      exact toInt_decimal zero
  · rw [if_neg (fun both => vts both.1),if_neg vts]
    exact toInt_nil

theorem sessEnt_record {m : Manager} {s : Session} (d : Option Display) :
    sessEnt ([comma].intercalate (fields m d s)) = some (shown m d s) := by
  have apart : ∀ field ∈ fields m d s, comma ∉ field :=
    fun field inside separator => (clean_fields m d s field inside comma separator).2.2.2 rfl
  have some_field : fields m d s ≠ [] := by cases s <;> simp [fields]
  unfold sessEnt
  rw [splitOn_intercalate comma apart some_field]
  cases s with
  | x di =>
    have star : byte '*' ∈ (if isSelf d di then [byte '*'] else []) ++
        (if sessionGuarded m d di then [byte '!'] else []) ↔ isSelf d di = true := by
      cases isSelf d di <;> cases sessionGuarded m d di <;> decide
    have noT : byte 't' ∉ (if isSelf d di then [byte '*'] else []) ++
        (if sessionGuarded m d di then [byte '!'] else []) := by
      cases isSelf d di <;> cases sessionGuarded m d di <;> decide
    simp [fields,shown,sessionOf,toInt_vtField,star,noT]
  | tty ut =>
    have t : byte '*' ≠ byte 't' := by decide
    have bang : byte '*' ≠ byte '!' := by decide
    simp [fields,shown,sessionOf,toInt_vtField,t,bang]

def record (m : Manager) (d : Option Display) (s : Session) : Bytes := [comma].intercalate (fields m d s)

theorem intercalate_forall {P : UInt8 → Prop} {separator : UInt8} (between : P separator) {parts : List Bytes}
    (within : ∀ part ∈ parts, ∀ c ∈ part, P c) : ∀ c ∈ [separator].intercalate parts, P c := by
  induction parts with
  | nil => intro c inside; simp at inside
  | cons part parts ih =>
    have first := within part mem_cons_self
    have others := ih fun part inside => within part (mem_cons_of_mem _ inside)
    intro c inside
    by_cases single : parts = []
    · subst single
      rw [intercalate_singleton] at inside
      exact first c inside
    · rw [intercalate_cons_of_ne_nil single,mem_append,mem_append] at inside
      rcases inside with (inside | inside) | inside
      · exact first c inside
      · exact mem_singleton.mp inside ▸ between
      · exact others c inside

theorem record_ne_nil (m : Manager) (d : Option Display) (s : Session) : record m d s ≠ [] := by
  cases s <;> simp [record,fields,intercalate_cons_cons]

theorem record_clean (m : Manager) (d : Option Display) (s : Session) :
    ∀ c ∈ record m d s, c ≠ 0 ∧ c ≠ tab ∧ c ≠ newline := by
  apply intercalate_forall
  · decide
  · intro part among c inside
    obtain ⟨zero,tabs,lines,_⟩ := clean_fields m d s part among c inside
    exact ⟨zero,tabs,lines⟩

theorem flatMap_tab (first : Bytes) (others : List Bytes) :
    (first :: others).flatMap (fun r => tab :: r) = tab :: [tab].intercalate (first :: others) := by
  induction others generalizing first with
  | nil => simp
  | cons second others ih => rw [flatMap_cons,ih second,intercalate_cons_cons]; simp

theorem stringAt_zero {str : Bytes} (solid : ∀ c ∈ str, c ≠ 0) (after : Bytes) :
    stringAt (str ++ 0 :: after) = str := by
  rw [stringAt,takeWhile_append_of_pos (by simpa using solid)]
  simp

theorem sessions_records {m : Manager} {d : Option Display} {listed : List Session} (some_listed : listed ≠ [])
    (after : Bytes) :
    sessions (text "ok" ++ (listed.map (record m d)).flatMap (tab :: ·) ++ 0 :: after) =
      some (listed.map (shown m d)) := by
  obtain ⟨first,others,rfl⟩ := exists_cons_of_ne_nil some_listed
  have clean : ∀ r ∈ (first :: others).map (record m d), ∀ c ∈ r, c ≠ 0 ∧ c ≠ tab ∧ c ≠ newline := by
    intro r among
    obtain ⟨s,-,rfl⟩ := mem_map.mp among
    exact record_clean m d s
  have solid : ∀ c ∈ [tab].intercalate ((first :: others).map (record m d)), c ≠ 0 :=
    intercalate_forall (by decide) fun r among c inside => (clean r among c inside).1
  have apart : ∀ r ∈ (first :: others).map (record m d), tab ∉ r :=
    fun r among separator => (clean r among tab separator).2.1 rfl
  have nonempty : ((first :: others).map (record m d)).filter (· ≠ []) = (first :: others).map (record m d) := by
    apply filter_eq_self.mpr
    intro r among
    obtain ⟨s,-,rfl⟩ := mem_map.mp among
    exact decide_eq_true (record_ne_nil m d s)
  have start : (text "ok" ++ ((first :: others).map (record m d)).flatMap (tab :: ·) ++ 0 :: after).drop 3 =
      [tab].intercalate ((first :: others).map (record m d)) ++ 0 :: after := by
    rw [map_cons,flatMap_tab]
    rfl
  rw [sessions,start,stringAt_zero solid,splitOn_intercalate tab apart (by simp),nonempty,mapM_map]
  have each : ∀ listed : List Session, listed.mapM (sessEnt ∘ record m d) = some (listed.map (shown m d)) := by
    intro listed
    induction listed with
    | nil => rfl
    | cons s listed ih => simp [ih,record,sessEnt_record]
  exact each _

theorem filter_splitOn_eq_nil (str : Bytes) : (str.splitOn tab).filter (· ≠ []) = [] ↔ ∀ c ∈ str, c = tab := by
  constructor
  · intro none c inside
    have empty : ∀ part ∈ str.splitOn tab, ∀ c ∈ part, c = tab := by
      intro part among
      have nil : part = [] := by simpa using filter_eq_nil_iff.mp none part among
      rw [nil]
      nofun
    have joined : [tab].intercalate (str.splitOn tab) = str := intercalate_splitOn tab
    rw [← joined] at inside
    exact intercalate_forall (P := (· = tab)) rfl empty c inside
  · induction str with
    | nil => intro; rfl
    | cons c str ih =>
      intro tabs
      rw [splitOn_cons_eq_if_modifyHead,if_pos (by simp [tabs c mem_cons_self])]
      simpa using ih fun c inside => tabs c (mem_cons_of_mem _ inside)

theorem sessions_eq_nil (re : Bytes) : sessions re = some [] ↔ ∀ c ∈ stringAt (re.drop 3), c = tab := by
  rw [sessions,← filter_splitOn_eq_nil]
  constructor
  · intro none
    cases records : ((stringAt (re.drop 3)).splitOn tab).filter (· ≠ []) with
    | nil => rfl
    | cons r others =>
      rw [records,mapM_cons] at none
      obtain ⟨_,_,rest⟩ := Option.bind_eq_some_iff.mp none
      obtain ⟨_,_,impossible⟩ := Option.bind_eq_some_iff.mp rest
      cases impossible
  · intro none
    rw [none]
    rfl

/-- The reply without the newline at its end. -/
def body (m : Manager) (d : Option Display) : Bytes :=
  text "ok" ++ ((listSessions m).map (record m d)).flatMap (tab :: ·)

theorem alllocal_eq (m : Manager) (d : Option Display) : alllocal m d = body m d ++ [newline] := by
  have same : (listSessions m).flatMap (emit m d) = ((listSessions m).map (record m d)).flatMap (tab :: ·) := by
    rw [flatMap_map]
    unfold flatMap
    exact congrArg flatten (map_congr_left fun s listed => emit_eq listed d)
  rw [alllocal,same,body]

theorem newline_body (m : Manager) (d : Option Display) : newline ∉ body m d := by
  intro inside
  rcases mem_append.mp inside with inside | inside
  · revert inside
    decide
  · obtain ⟨r,among,inside⟩ := mem_flatMap.mp inside
    obtain ⟨s,-,rfl⟩ := mem_map.mp among
    rcases mem_cons.mp inside with impossible | inside
    · revert impossible
      decide
    · exact (record_clean m d s newline inside).2.2 rfl

theorem isOk_body (m : Manager) (d : Option Display) (after : Bytes) :
    isOk (body m d ++ 0 :: after) ((body m d).length+1) = true := by
  cases listed : listSessions m with
  | nil =>
    have none : body m d = text "ok" := by simp [body,listed]
    rw [none]
    rfl
  | cons s others =>
    obtain ⟨rest,start⟩ : ∃ rest, body m d = text "ok" ++ tab :: rest := by
      rw [body,listed,map_cons,flatMap_tab]
      exact ⟨_,rfl⟩
    rw [start]
    simp [isOk,text,byte,tab]

/-- What `localSessions` makes of a reply depends on what comes after it only if the reply is empty. -/
theorem localSessions_alllocal (m : Manager) (d : Option Display) (sizes : Nat → Nat) (fresh : Nat → Nat → UInt8)
    (re : Bytes) :
    localSessions sizes fresh (alllocal m d) re =
      if listSessions m = [] then (sessions (text "ok" ++ 0 :: (makeRoom fresh re 0).drop 3)).map (true,·)
      else some (true,(listSessions m).map (shown m d)) := by
  obtain ⟨after,result,short⟩ := exec_line sizes fresh (newline_body m d) [] (alllocal m d) re
    (by rw [alllocal_eq]; rfl) (by rw [alllocal_eq]; simp)
  rw [nil_append,length_nil,isOk_body] at result
  rw [localSessions,result]
  by_cases none : listSessions m = []
  · have empty : body m d = text "ok" := by simp [body,none]
    rw [empty] at short
    rw [if_pos none,empty,short (by decide)]
    rfl
  · rw [if_neg none]
    simp only [body]
    rw [sessions_records none]
    rfl

/-- `localSessions` returns exactly the sessions that kdm lists if and only if no name is cut and, where
    there are none, nothing but tabs had been in the buffer behind the reply. -/
theorem localSessions_iff (m : Manager) (d : Option Display) (sizes : Nat → Nat) (fresh : Nat → Nat → UInt8)
    (re : Bytes) :
    localSessions sizes fresh (alllocal m d) re = some (true,(listSessions m).map (sessionOf m d)) ↔
      (∀ s ∈ listSessions m, Fits m s) ∧
      (listSessions m = [] → ∀ c ∈ stringAt ((makeRoom fresh re 0).drop 3), c = tab) := by
  rw [localSessions_alllocal]
  by_cases none : listSessions m = []
  · have stale := sessions_eq_nil (text "ok" ++ 0 :: (makeRoom fresh re 0).drop 3)
    have start : (text "ok" ++ 0 :: (makeRoom fresh re 0).drop 3).drop 3 = (makeRoom fresh re 0).drop 3 := rfl
    rw [start] at stale
    rw [if_pos none,none]
    simpa using stale
  · rw [if_neg none]
    simp [none,map_inj_left,shown_eq_iff]

/-- A kdm without displays and logins. -/
def idle : Manager := ⟨true,true,[],[],false,fun _ => none⟩

/-- A program that asks an idle kdm with memory which it has had a reply in before is told of the
    session that was there then. -/
theorem idle_stale :
    localSessions (fun _ => 1) (fun _ _ => 0) (alllocal idle none) (text "ok\t:0,vt7,ann,kde,*") =
      some (true,[⟨text ":0",7,text "ann",text "kde",true,false⟩]) ∧
    localSessions (fun _ => 1) (fun _ _ => 0) (alllocal idle none) (text "ok\t:0,vt7,ann,kde,*") ≠
      some (true,(listSessions idle).map (sessionOf idle none)) := by
  have run : localSessions (fun _ => 1) (fun _ _ => 0) (alllocal idle none) (text "ok\t:0,vt7,ann,kde,*") =
      some (true,[⟨text ":0",7,text "ann",text "kde",true,false⟩]) := by
    rw [localSessions_alllocal,if_pos (by rfl)]
    decide +kernel
  constructor
  · exact run
  · rw [run]
    decide

end KdeWorkspace.SessionList
