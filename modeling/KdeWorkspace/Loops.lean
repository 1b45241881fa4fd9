import Mathlib.Logic.Relation
import Mathlib.Tactic.Common

/-!
Loops and runs. A loop is given by what one round does with the state: it goes
on with a new state, or it leaves the loop with a result (`Round`). A loop ends
when some number of rounds is enough (`Ends`), and then its result is unique
(`ends_unique`). A measure that every round lowers makes a loop end, and what
every round keeps holds of the result (`ends_of_measure`); rounds that always
go on leave no result (`not_ends_of_invariant`). A fold that can fail follows another
one if each of its steps does (`foldlM_follows`).

A run performs the operations of a list one after the other (`Run`). What every
operation keeps holds of every state a run reaches (`Run.invariant`), and a property
can be asked of every operation in the state it is performed in (`Throughout`).
-/
namespace KdeWorkspace.Loops
universe u v w

section
variable {σ : Type u} {ρ : Type v}

/-- What one round of a loop does: go on with a new state, or leave with a result. -/
inductive Round (σ : Type u) (ρ : Type v) where
  | next (state : σ)
  | done (result : ρ)

/-- The result of a loop when at most `fuel` rounds leave it. -/
def loop (round : σ → Round σ ρ) : Nat → σ → Option ρ
  | 0, _ => none
  | fuel+1, s =>
    match round s with
    | .next t => loop round fuel t
    | .done r => some r

/-- Some number of rounds leaves the loop with the result. -/
def Ends (round : σ → Round σ ρ) (s : σ) (r : ρ) : Prop := ∃ fuel, loop round fuel s = some r

variable {round : σ → Round σ ρ}

theorem loop_next {s t : σ} (goes : round s = .next t) (fuel : Nat) : loop round (fuel+1) s = loop round fuel t := by
  simp [loop,goes]

variable {s : σ}

theorem loop_done {r : ρ} (leaves : round s = .done r) (fuel : Nat) : loop round (fuel+1) s = some r := by
  simp [loop,leaves]

theorem ends_next {s t : σ} {r : ρ} (goes : round s = .next t) (rest : Ends round t r) : Ends round s r := by
  obtain ⟨fuel,ended⟩ := rest
  exact ⟨fuel+1,by rw [loop_next goes,ended]⟩

theorem ends_done {r : ρ} (leaves : round s = .done r) : Ends round s r := ⟨1,loop_done leaves 0⟩

theorem loop_mono {fuel more : Nat} {r : ρ} (ended : loop round fuel s = some r)
    (enough : fuel ≤ more) : loop round more s = some r := by
  induction fuel generalizing s more with
  | zero => simp [loop] at ended
  | succ fuel ih =>
    obtain ⟨more,rfl⟩ : ∃ rest, more = rest+1 := ⟨more-1,by omega⟩
    cases body : round s with
    | done result => rw [loop_done body] at ended ⊢; exact ended
    | next t => rw [loop_next body] at ended ⊢; exact ih ended (by omega)

theorem ends_unique {r r' : ρ} (first : Ends round s r) (second : Ends round s r') : r = r' := by
  obtain ⟨fuel,ended⟩ := first
  obtain ⟨fuel',ended'⟩ := second
  have more := loop_mono ended (Nat.le_add_right fuel fuel')
  have more' := loop_mono ended' (Nat.le_add_left fuel' fuel)
  exact Option.some.inj (more.symm.trans more')

theorem ends_visits (visit : Nat → σ) {k : Nat} {r : ρ}
    (goes : ∀ j, j < k → round (visit j) = .next (visit (j+1))) (rest : Ends round (visit k) r) :
    Ends round (visit 0) r := by
  induction k with
  | zero => exact rest
  | succ k ih =>
    refine ih (fun j before => goes j (by omega)) ?_
    exact ends_next (goes k (by omega)) rest

/-- The rule of total correctness: rounds that keep the invariant and lower a
    well-founded measure leave the loop, with a result that meets `Post`. -/
theorem ends_of_measure {α : Type w} {lower : α → α → Prop} (wf : WellFounded lower) (measure : σ → α)
    (Inv : σ → Prop) (Post : ρ → Prop) (goes : ∀ s t, Inv s → round s = .next t → Inv t ∧ lower (measure t) (measure s))
    (leaves : ∀ s r, Inv s → round s = .done r → Post r) (start : Inv s) :
    ∃ r, Ends round s r ∧ Post r := by
  induction s using (InvImage.wf measure wf).induction with
  | _ s ih =>
    cases body : round s with
    | done r => exact ⟨r,ends_done body,leaves s r start body⟩
    | next t =>
      obtain ⟨kept,smaller⟩ := goes s t start body
      obtain ⟨r,ended,post⟩ := ih t smaller kept
      exact ⟨r,ends_next body ended,post⟩

theorem ends_post (Inv : σ → Prop) (Post : ρ → Prop)
    (goes : ∀ s t, Inv s → round s = .next t → Inv t) (leaves : ∀ s r, Inv s → round s = .done r → Post r)
    {r : ρ} (ended : Ends round s r) (start : Inv s) : Post r := by
  obtain ⟨fuel,ended⟩ := ended
  induction fuel generalizing s with
  | zero => simp [loop] at ended
  | succ fuel ih =>
    cases body : round s with
    | done result =>
      rw [loop_done body] at ended
      exact Option.some.inj ended ▸ leaves s result start body
    | next t =>
      rw [loop_next body] at ended
      exact ih (goes s t start body) ended

theorem not_ends_of_invariant (Inv : σ → Prop)
    (goes : ∀ s, Inv s → ∃ t, round s = .next t ∧ Inv t) (start : Inv s) (r : ρ) : ¬ Ends round s r := by
  rintro ⟨fuel,ended⟩
  induction fuel generalizing s with
  | zero => simp [loop] at ended
  | succ fuel ih =>
    obtain ⟨t,body,kept⟩ := goes s start
    rw [loop_next body] at ended
    exact ih kept ended

theorem foldlM_follows {τ : Type v} {α : Type w} {f : σ → α → Option σ} {g : τ → α → Option τ} {R : σ → τ → Prop}
    (follows : ∀ s t t' a, R s t → g t a = some t' → ∃ s', f s a = some s' ∧ R s' t') (l : List α) {t t' : τ}
    (start : R s t) (ran : l.foldlM g t = some t') : ∃ s', l.foldlM f s = some s' ∧ R s' t' := by
  induction l generalizing s t with
  | nil =>
    obtain rfl := Option.some.inj ran
    exact ⟨s,rfl,start⟩
  | cons a l ih =>
    rw [List.foldlM_cons,Option.bind_eq_bind] at ran
    obtain ⟨u,first,rest⟩ := Option.bind_eq_some_iff.mp ran
    obtain ⟨v,first',related⟩ := follows s t u a start first
    obtain ⟨s',rest',last⟩ := ih related rest
    refine ⟨s',?_,last⟩
    rw [List.foldlM_cons,Option.bind_eq_bind,first',Option.bind_some]
    exact rest'

end

section
variable {σ : Type u} {ι : Type v} {step : σ → ι → σ → Prop}

/-- A run: the operations of a list performed one after the other. -/
inductive Run (step : σ → ι → σ → Prop) : σ → List ι → σ → Prop
  | nil (s : σ) : Run step s [] s
  | cons {s t u : σ} {op : ι} {ops : List ι} : step s op t → Run step t ops u → Run step s (op :: ops) u

theorem Run.invariant {P : σ → Prop} (keeps : ∀ s op t, P s → step s op t → P t) {s t : σ} {ops : List ι}
    (run : Run step s ops t) (start : P s) : P t := by
  induction run with
  | nil => exact start
  | cons first _ ih => exact ih (keeps _ _ _ start first)

theorem Run.append {s t u : σ} {ops more : List ι} (first : Run step s ops t) (second : Run step t more u) :
    Run step s (ops ++ more) u := by
  induction first with
  | nil => exact second
  | cons head _ ih => exact .cons head (ih second)

/-- The property holds of every operation of a run, in the state it is performed in. -/
def Throughout (step : σ → ι → σ → Prop) (P : σ → ι → Prop) : σ → List ι → Prop
  | _,[] => True
  | s,op :: ops => P s op ∧ ∀ t, step s op t → Throughout step P t ops

theorem throughout_congr {P Q : σ → ι → Prop} (same : ∀ s op, P s op ↔ Q s op) (s : σ) (ops : List ι) :
    Throughout step P s ops ↔ Throughout step Q s ops := by
  induction ops generalizing s with
  | nil => exact Iff.rfl
  | cons op rest ih => exact and_congr (same s op) (forall_congr' (fun t => imp_congr Iff.rfl (ih t)))

theorem throughout_iff {Inv : σ → Prop} {B P Q : σ → ι → Prop} (same : ∀ s op, Inv s → B s op → (P s op ↔ Q s op))
    (keeps : ∀ s op t, Inv s → B s op → P s op → step s op t → Inv t) {s : σ} {ops : List ι} (start : Inv s)
    (given : Throughout step B s ops) : Throughout step P s ops ↔ Throughout step Q s ops := by
  induction ops generalizing s with
  | nil => exact Iff.rfl
  | cons op rest ih =>
    obtain ⟨here,later⟩ := given
    have first := same s op start here
    constructor
    · rintro ⟨holds,others⟩
      refine ⟨first.mp holds,fun t done => ?_⟩
      exact (ih (keeps s op t start here holds done) (later t done)).mp (others t done)
    · rintro ⟨holds,others⟩
      have before := first.mpr holds
      refine ⟨before,fun t done => ?_⟩
      exact (ih (keeps s op t start here before done) (later t done)).mpr (others t done)

theorem throughout_of_forall {P : σ → ι → Prop} {ops : List ι} (always : ∀ op ∈ ops, ∀ s, P s op) (s : σ) :
    Throughout step P s ops := by
  induction ops generalizing s with
  | nil => trivial
  | cons op rest ih =>
    exact ⟨always op List.mem_cons_self s,fun t _ => ih (fun later member => always later (List.mem_cons_of_mem op member)) t⟩

end
end KdeWorkspace.Loops
