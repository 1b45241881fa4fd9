import KdeWorkspace.Loops
import Mathlib.Data.List.Nodup

/-!
The strings of the backend that are kept once each and counted (`newStr`, `delStr`).

The table is a chain of entries; every entry counts the references to it that are
held. Taking the last one is where `delStr` goes wrong: it unlinks the entry
through the slot that points to it, and then frees what the slot points to, which
is the entry behind. So the table is right as long as no last reference is given
back (`table_right_iff`).
-/
set_option linter.unusedSectionVars false

namespace KdeWorkspace.SharedStrings
open Loops List Option Function
variable {Addr : Type} [DecidableEq Addr]

structure RcStr where
  str : List UInt8
  cnt : Int
deriving Repr, DecidableEq

/-- The entries that are allocated, by their addresses, and the chain from `strs` on. -/
structure Table (Addr : Type) where
  heap : Addr → Option RcStr
  strs : List Addr

namespace Table

def set (t : Table Addr) (a : Addr) (e : RcStr) : Table Addr := {t with heap := Function.update t.heap a (some e)}

/-- Frees an entry and its string. -/
def free (t : Table Addr) (a : Addr) : Table Addr := {t with heap := Function.update t.heap a none}

/-- The loop of `newStr`: the first entry of the chain with the string. There is no result when an entry on the way
    has been freed. -/
def search (t : Table Addr) (str : List UInt8) : List Addr → Option (Option Addr)
  | [] => some none
  | cs :: rest => do
    let e ← t.heap cs
    if e.str = str then some (some cs) else t.search str rest

/-- The loop of `delStr`: the slot of the chain that points to the entry. -/
def slot (t : Table Addr) (str : Addr) : List Addr → Option (Option Nat)
  | [] => some none
  | cs :: rest =>
    if str = cs then some (some 0)
    else do
      let _ ← t.heap cs
      let i ← t.slot str rest
      some (i.map (·+1))

/-- `newStr`, with the address that `Malloc` gives, if it gives one: the table after it, and the entry. -/
def newStr (t : Table Addr) (str : List UInt8) (malloc : Option Addr) : Option (Table Addr × Option Addr) := do
  match ← t.search str t.strs with
  | some cs => do
    let e ← t.heap cs
    some (t.set cs {e with cnt := e.cnt+1},some cs)
  | none =>
    match malloc with
    | none => some (t,none)
    | some cs => some ({t.set cs ⟨str,1⟩ with strs := cs :: t.strs},some cs)

/-- `delStr`. There is no result when it dereferences a null pointer or one to an entry that has been freed. -/
def delStr (t : Table Addr) (str : Option Addr) : Option (Table Addr) := do
  match str with
  | none => some t
  | some str => do
    let e ← t.heap str
    let t := t.set str {e with cnt := e.cnt-1}
    if e.cnt-1 ≠ 0 then some t
    else
      match ← t.slot str t.strs with
      | none => some t
      | some i => do
        let t := {t with strs := t.strs.eraseIdx i}
        -- the slot points to the entry behind the removed one now
        let next ← t.strs[i]?
        let _ ← t.heap next
        some (t.free next)

/-- `name->cnt++`, for another dependency on a file. -/
def depend (t : Table Addr) (name : Addr) : Option (Table Addr) := do
  let e ← t.heap name
  some (t.set name {e with cnt := e.cnt+1})

end Table

inductive Op (Addr : Type)
  | newStr (str : List UInt8) (malloc : Option Addr)
  | depend (name : Addr)
  | delStr (str : Option Addr)

/-- The table, and the references that are held on its entries. -/
structure World (Addr : Type) where
  table : Table Addr
  held : Addr → Nat

def empty : World Addr := ⟨⟨fun _ => none,[]⟩,fun _ => 0⟩

namespace World
variable (w : World Addr)

def take (a : Addr) : Addr → Nat := Function.update w.held a (w.held a+1)
def giveBack (a : Addr) : Addr → Nat := Function.update w.held a (w.held a-1)

/-- An operation, with the entry that it returns. -/
def perform : Op Addr → Option (World Addr × Option Addr)
  | .newStr str malloc => do
    let (t,cs) ← w.table.newStr str malloc
    some (⟨t,cs.elim w.held w.take⟩,cs)
  | .depend name => do
    let t ← w.table.depend name
    some (⟨t,w.take name⟩,none)
  | .delStr str => do
    let t ← w.table.delStr str
    some (⟨t,str.elim w.held w.giveBack⟩,none)

def Step (w : World Addr) (op : Op Addr) (w' : World Addr) : Prop := ∃ cs, w.perform op = some (w',cs)

/-- References are given back and shared by who holds one; `Malloc` gives memory that is free. -/
def Balanced : Op Addr → Prop
  | .newStr _ malloc => ∀ cs, malloc = some cs → w.table.heap cs = none
  | .depend name => 0 < w.held name
  | .delStr str => ∀ a, str = some a → 0 < w.held a

/-- The operation gives back the last reference to an entry. -/
def GivesLast (op : Op Addr) : Prop := ∃ a, op = .delStr (some a) ∧ w.held a = 1

/-- The table has exactly the strings that are held, each once and with its count. -/
structure Exact : Prop where
  once : w.table.strs.Nodup
  counted : ∀ a ∈ w.table.strs, ∃ e, w.table.heap a = some e ∧ e.cnt = w.held a ∧ 0 < w.held a
  listed : ∀ a, 0 < w.held a → a ∈ w.table.strs
  unique : ∀ a ∈ w.table.strs, ∀ b ∈ w.table.strs, ∀ e e',
    w.table.heap a = some e → w.table.heap b = some e' → e.str = e'.str → a = b

/-- What an operation returns and leaves alone: `newStr` finds the entry of an equal string; `delStr` removes only an
    entry whose last reference it takes, and frees it; no operation touches another entry. -/
def Proper (w' : World Addr) (returned : Option Addr) : Op Addr → Prop
  | .newStr str _ =>
    (∀ a ∈ w.table.strs, ∀ e, w.table.heap a = some e → e.str = str → returned = some a) ∧
      ∀ b, returned ≠ some b → w'.table.heap b = w.table.heap b
  | .depend name => ∀ b, b ≠ name → w'.table.heap b = w.table.heap b
  | .delStr none => w' = w
  | .delStr (some a) =>
    w'.table.strs = (if w.held a = 1 then w.table.strs.erase a else w.table.strs) ∧
      (w.held a = 1 → w'.table.heap a = none) ∧ ∀ b, b ≠ a → w'.table.heap b = w.table.heap b

/-- The operation does what it should. -/
def Right (op : Op Addr) : Prop := ∃ w' returned, w.perform op = some (w',returned) ∧ w'.Exact ∧ w.Proper w' returned op

end World

namespace Table
variable {t : Table Addr} {l : List Addr}

theorem search_some (str : List UInt8) (allocated : ∀ a ∈ l, ∃ e, t.heap a = some e) :
    (∃ a ∈ l, (∃ e, t.heap a = some e ∧ e.str = str) ∧ t.search str l = some (some a)) ∨
      ((∀ a ∈ l, ∀ e, t.heap a = some e → e.str ≠ str) ∧ t.search str l = some none) := by
  induction l with
  | nil => exact .inr ⟨fun _ member => (not_mem_nil member).elim,rfl⟩
  | cons a rest ih =>
    obtain ⟨e,here⟩ := allocated a mem_cons_self
    have unfolded : t.search str (a :: rest) = if e.str = str then some (some a) else t.search str rest := by
      rw [search,here]
      rfl
    rw [unfolded]
    by_cases same : e.str = str
    · rw [if_pos same]
      exact .inl ⟨a,mem_cons_self,⟨e,here,same⟩,rfl⟩
    · rw [if_neg same]
      rcases ih (fun b member => allocated b (mem_cons_of_mem a member)) with ⟨b,member,found,result⟩ | ⟨others,result⟩
      · exact .inl ⟨b,mem_cons_of_mem a member,found,result⟩
      · refine .inr ⟨?_,result⟩
        intro b member e' entry
        rcases mem_cons.mp member with rfl | later
        · rwa [← some.inj (here.symm.trans entry)]
        · exact others b later e' entry

theorem slot_some {a : Addr} (allocated : ∀ b ∈ l, ∃ e, t.heap b = some e) (member : a ∈ l) :
    ∃ i, t.slot a l = some (some i) ∧ l[i]? = some a ∧ l.eraseIdx i = l.erase a := by
  induction l with
  | nil => cases member
  | cons b rest ih =>
    by_cases same : a = b
    · subst same
      exact ⟨0,by rw [slot,if_pos rfl],rfl,by simp⟩
    · obtain ⟨e,here⟩ := allocated b mem_cons_self
      have later := (mem_cons.mp member).resolve_left same
      obtain ⟨i,found,place,erased⟩ := ih (fun c inside => allocated c (mem_cons_of_mem b inside)) later
      refine ⟨i+1,?_,place,?_⟩
      · rw [slot,if_neg same,here,found]
        rfl
      · rw [eraseIdx_cons_succ,erased,erase_cons_tail (by simpa using Ne.symm same)]

/-- What `delStr` of the last reference frees is not the entry. -/
theorem delStr_last {t' : Table Addr} {a : Addr} {e : RcStr} (once : t.strs.Nodup)
    (allocated : ∀ b ∈ t.strs, ∃ e, t.heap b = some e) (member : a ∈ t.strs) (entry : t.heap a = some e) (one : e.cnt = 1)
    (deleted : t.delStr (some a) = some t') : t'.heap a ≠ none := by
  have kept : ∀ b ∈ t.strs, ∃ e', (t.set a {e with cnt := e.cnt-1}).heap b = some e' := by
    intro b inside
    by_cases same : b = a
    · exact ⟨{e with cnt := e.cnt-1},by simp [set,same]⟩
    · obtain ⟨e',found⟩ := allocated b inside
      exact ⟨e',by simp [set,same,found]⟩
  obtain ⟨i,found,_,erased⟩ := slot_some kept member
  have strs_kept : (t.set a {e with cnt := e.cnt-1}).strs = t.strs := rfl
  have gone : ¬ e.cnt-1 ≠ 0 := by omega
  simp only [delStr,entry,strs_kept,found,erased,bind_eq_bind,bind_some,if_neg gone,
    bind_eq_some_iff,some.injEq] at deleted
  obtain ⟨next,behind,_,_,rfl⟩ := deleted
  have other : a ≠ next := by
    rintro rfl
    exact once.not_mem_erase (mem_of_getElem? behind)
  simp [free,set,other]

end Table

namespace World
variable {w : World Addr}

theorem Exact.set {a : Addr} {e : RcStr} {n : Nat} (exact_ : w.Exact) (member : a ∈ w.table.strs)
    (entry : w.table.heap a = some e) (positive : 0 < n) :
    (World.mk (w.table.set a {e with cnt := n}) (update w.held a n)).Exact := by
  constructor
  · exact exact_.once
  · intro b inside
    by_cases same : b = a
    · subst same
      exact ⟨{e with cnt := n},by simp [Table.set],by simp,by simpa using positive⟩
    · obtain ⟨e',found,count,held⟩ := exact_.counted b inside
      exact ⟨e',by simpa [Table.set,same] using found,by simpa [same] using count,by simpa [same] using held⟩
  · intro b held
    by_cases same : b = a
    · exact same ▸ member
    · exact exact_.listed b (by simpa [same] using held)
  · intro b inside c inside' f f' found found' equal
    have old (x : Addr) (g : RcStr) (here : (w.table.set a {e with cnt := n}).heap x = some g) :
        ∃ g', w.table.heap x = some g' ∧ g'.str = g.str := by
      by_cases same : x = a
      · subst same
        simp only [Table.set,update_self,some.injEq] at here
        exact ⟨e,entry,by rw [← here]⟩
      · simp only [Table.set,update_of_ne same] at here
        exact ⟨g,here,rfl⟩
    obtain ⟨g,here,text⟩ := old b f found
    obtain ⟨g',here',text'⟩ := old c f' found'
    exact exact_.unique b inside c inside' g g' here here' (by rw [text,text',equal])

theorem Exact.allocated (exact_ : w.Exact) : ∀ a ∈ w.table.strs, ∃ e, w.table.heap a = some e :=
  fun a member => (exact_.counted a member).imp fun _ both => both.1

theorem newStr_right (exact_ : w.Exact) {str : List UInt8} {malloc : Option Addr} (balanced : w.Balanced (.newStr str malloc)) :
    w.Right (.newStr str malloc) := by
  rcases Table.search_some str exact_.allocated with ⟨a,member,⟨e,entry,text⟩,found⟩ | ⟨absent,missing⟩
  · obtain ⟨e',entry',count,held⟩ := exact_.counted a member
    obtain rfl := some.inj (entry.symm.trans entry')
    have performed : w.perform (.newStr str malloc) =
        some (⟨w.table.set a {e with cnt := e.cnt+1},w.take a⟩,some a) := by
      simp [perform,Table.newStr,found,entry]
    refine ⟨_,_,performed,?_,?_,?_⟩
    · rw [count]
      exact exact_.set member entry (Nat.succ_pos _)
    · intro b inside f found' same
      exact congrArg some (exact_.unique a member b inside e f entry found' (text.trans same.symm))
    · intro b other
      exact update_of_ne (fun same => other (congrArg some same.symm)) _ _
  · cases malloc with
    | none =>
      have performed : w.perform (.newStr str none) = some (w,none) := by
        simp [perform,Table.newStr,missing]
      exact ⟨_,_,performed,exact_,fun a inside e entry same => absurd same (absent a inside e entry),fun _ _ => rfl⟩
    | some a =>
      have unused := balanced a rfl
      have fresh : a ∉ w.table.strs := by
        intro inside
        obtain ⟨e,entry⟩ := exact_.allocated a inside
        rw [unused] at entry
        cases entry
      have unheld : w.held a = 0 := Nat.eq_zero_of_not_pos fun held => fresh (exact_.listed a held)
      have performed : w.perform (.newStr str (some a)) =
          some (⟨⟨update w.table.heap a (some ⟨str,1⟩),a :: w.table.strs⟩,w.take a⟩,some a) := by
        simp [perform,Table.newStr,missing,Table.set]
      have other (b : Addr) (inside : b ∈ w.table.strs) : b ≠ a := fun same => fresh (same ▸ inside)
      refine ⟨_,_,performed,?_,fun b inside e entry same => absurd same (absent b inside e entry),?_⟩
      · constructor
        · exact nodup_cons.mpr ⟨fresh,exact_.once⟩
        · intro b inside
          rcases mem_cons.mp inside with rfl | old
          · exact ⟨⟨str,1⟩,by simp,by simp [take,unheld],by simp [take]⟩
          · obtain ⟨e,entry,count,held⟩ := exact_.counted b old
            exact ⟨e,by simp [other b old,entry],by simp [take,other b old,count],by simpa [take,other b old] using held⟩
        · intro b held
          by_cases same : b = a
          · exact same ▸ mem_cons_self
          · exact mem_cons_of_mem a (exact_.listed b (by simpa [take,same] using held))
        · intro b inside c inside' e e' entry entry' equal
          rcases mem_cons.mp inside with rfl | old <;> rcases mem_cons.mp inside' with rfl | old'
          · rfl
          · simp only [update_self,some.injEq] at entry
            simp only [update_of_ne (other c old')] at entry'
            subst entry
            exact absurd equal.symm (absent c old' e' entry')
          · simp only [update_self,some.injEq] at entry'
            simp only [update_of_ne (other b old)] at entry
            subst entry'
            exact absurd equal (absent b old e entry)
          · simp only [update_of_ne (other b old)] at entry
            simp only [update_of_ne (other c old')] at entry'
            exact exact_.unique b old c old' e e' entry entry' equal
      · intro b different
        exact update_of_ne (fun same => different (congrArg some same.symm)) _ _

theorem depend_right (exact_ : w.Exact) {name : Addr} (balanced : w.Balanced (.depend name)) : w.Right (.depend name) := by
  have member := exact_.listed name balanced
  obtain ⟨e,entry,count,_⟩ := exact_.counted name member
  have performed : w.perform (.depend name) = some (⟨w.table.set name {e with cnt := e.cnt+1},w.take name⟩,none) := by
    simp [perform,Table.depend,entry]
  refine ⟨_,_,performed,?_,fun b other => update_of_ne other _ _⟩
  rw [count]
  exact exact_.set member entry (Nat.succ_pos _)

theorem delStr_right (exact_ : w.Exact) {a : Addr} (more : 1 < w.held a) : w.Right (.delStr (some a)) := by
  have member := exact_.listed a (by omega)
  obtain ⟨e,entry,count,_⟩ := exact_.counted a member
  have shared : e.cnt-1 ≠ 0 := by omega
  have performed : w.perform (.delStr (some a)) = some (⟨w.table.set a {e with cnt := e.cnt-1},w.giveBack a⟩,none) := by
    simp [perform,Table.delStr,entry,shared]
  refine ⟨_,_,performed,?_,?_,fun last => by omega,fun b other => update_of_ne other _ _⟩
  · have less : e.cnt-1 = ((w.held a-1 : Nat) : Int) := by omega
    rw [less]
    exact exact_.set member entry (by omega)
  · rw [if_neg (by omega)]
    rfl

theorem delStr_wrong (exact_ : w.Exact) {a : Addr} (last : w.held a = 1) : ¬ w.Right (.delStr (some a)) := by
  rintro ⟨w',returned,performed,_,_,freed,_⟩
  have member := exact_.listed a (by omega)
  obtain ⟨e,entry,count,_⟩ := exact_.counted a member
  have one : e.cnt = 1 := by omega
  simp only [perform,bind_eq_bind,bind_eq_some_iff] at performed
  obtain ⟨t,deleted,same⟩ := performed
  have still := Table.delStr_last exact_.once exact_.allocated member entry one deleted
  obtain rfl := congrArg (World.table ∘ Prod.fst) (some.inj same)
  exact still (freed last)

theorem step_right_iff (exact_ : w.Exact) {op : Op Addr} (balanced : w.Balanced op) : w.Right op ↔ ¬ w.GivesLast op := by
  cases op with
  | newStr str malloc =>
    refine iff_of_true (newStr_right exact_ balanced) ?_
    rintro ⟨a,same,_⟩
    cases same
  | depend name =>
    refine iff_of_true (depend_right exact_ balanced) ?_
    rintro ⟨a,same,_⟩
    cases same
  | delStr str =>
    cases str with
    | none =>
      refine iff_of_true ⟨w,none,rfl,exact_,rfl⟩ ?_
      rintro ⟨a,same,_⟩
      cases same
    | some a =>
      have held := balanced a rfl
      by_cases last : w.held a = 1
      · exact iff_of_false (delStr_wrong exact_ last) (not_not_intro ⟨a,rfl,last⟩)
      · refine iff_of_true (delStr_right exact_ (by omega)) ?_
        rintro ⟨b,same,last'⟩
        cases same
        exact last last'

theorem step_unique {op : Op Addr} {w' t : World Addr} {returned : Option Addr} (performed : w.perform op = some (w',returned))
    (step : Step w op t) : t = w' := by
  obtain ⟨_,performed'⟩ := step
  exact (Prod.mk.inj (some.inj (performed'.symm.trans performed))).1

theorem Right.exact_after {op : Op Addr} {w' : World Addr} (right : w.Right op) (step : Step w op w') : w'.Exact := by
  obtain ⟨w'',returned,performed,after,_⟩ := right
  exact step_unique performed step ▸ after

end World

theorem empty_exact : (empty : World Addr).Exact :=
  ⟨nodup_nil,fun _ member => (not_mem_nil member).elim,fun _ held => (Nat.lt_irrefl 0 held).elim,
    fun _ member => (not_mem_nil member).elim⟩

/-- The table is right throughout exactly the runs in which `delStr` never takes the last reference to a string. -/
theorem table_right_iff (ops : List (Op Addr))
    (balanced : Throughout World.Step (fun w op => w.Balanced op) empty ops) :
    Throughout World.Step (fun w op => w.Right op) empty ops ↔
      Throughout World.Step (fun w op => ¬ w.GivesLast op) empty ops :=
  throughout_iff (fun _ _ exact_ given => World.step_right_iff exact_ given)
    (fun _ _ _ _ _ right step => right.exact_after step) empty_exact balanced

theorem balanced_sharing : Throughout World.Step (fun w op => w.Balanced op) (empty : World Nat)
    [.newStr [97] (some 1),.newStr [97] none,.delStr (some 1)] := by
  refine ⟨fun _ _ => rfl,fun t step => ?_⟩
  obtain rfl := World.step_unique rfl step
  refine ⟨fun _ absent => (nomatch absent),fun t step => ?_⟩
  obtain rfl := World.step_unique rfl step
  refine ⟨?_,fun _ _ => trivial⟩
  intro a same
  cases same
  decide

theorem table_right_sharing : Throughout World.Step (fun w op => w.Right op) (empty : World Nat)
    [.newStr [97] (some 1),.newStr [97] none,.delStr (some 1)] := by
  refine (table_right_iff _ balanced_sharing).mpr ?_
  refine ⟨fun ⟨_,same,_⟩ => (nomatch same),fun t step => ?_⟩
  obtain rfl := World.step_unique rfl step
  refine ⟨fun ⟨_,same,_⟩ => (nomatch same),fun t step => ?_⟩
  obtain rfl := World.step_unique rfl step
  refine ⟨?_,fun _ _ => trivial⟩
  rintro ⟨a,same,last⟩
  cases same
  exact absurd last (by decide)

/-- Of two strings the second is given back: the first one is freed, which is still held. -/
theorem last_reference_frees_another :
    let ops : List (Op Nat) := [.newStr [97] (some 1),.newStr [98] (some 2),.delStr (some 2)]
    Throughout World.Step (fun w op => w.Balanced op) empty ops ∧
      ¬ Throughout World.Step (fun w op => w.Right op) empty ops ∧
        ∃ w, Run World.Step empty ops w ∧ w.held 1 = 1 ∧ w.table.strs = [1] ∧ w.table.heap 1 = none := by
  refine ⟨?_,?_,?_⟩
  · refine ⟨fun _ _ => rfl,fun t step => ?_⟩
    obtain rfl := World.step_unique rfl step
    refine ⟨fun cs same => ?_,fun t step => ?_⟩
    · cases same
      decide
    · obtain rfl := World.step_unique rfl step
      refine ⟨fun a same => ?_,fun _ _ => trivial⟩
      cases same
      decide
  · rintro ⟨_,first⟩
    obtain ⟨_,second⟩ := first _ ⟨_,rfl⟩
    obtain ⟨⟨w,returned,performed,exact_,_⟩,_⟩ := second _ ⟨_,rfl⟩
    obtain rfl := World.step_unique rfl ⟨returned,performed⟩
    obtain ⟨e,entry,_⟩ := exact_.counted 1 (exact_.listed 1 (by decide))
    have freed : some e = none := entry.symm
    cases freed
  · exact ⟨_,.cons ⟨_,rfl⟩ (.cons ⟨_,rfl⟩ (.cons ⟨_,rfl⟩ (.nil _))),rfl,rfl,rfl⟩

end KdeWorkspace.SharedStrings
