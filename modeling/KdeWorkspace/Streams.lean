import Mathlib.Algebra.Group.Nat.Defs
import Mathlib.Tactic.Common

/-!
Reading values from a stream. A reader takes what it needs off the front or fails.
`Reads read written value` says that it takes exactly what was written for the value,
whatever follows.
-/
namespace KdeWorkspace.Streams
open List

variable {β α γ ι : Type}

/-- A reader of a stream of `β`. -/
abbrev Reader (β : Type) := StateT (List β) Option

/-- The next `n` elements; fails at the end of the stream. -/
def take (n : Nat) : Reader β (List β) := fun stream =>
  if n ≤ stream.length then some (stream.take n,stream.drop n) else none

def Reads (read : Reader β α) (written : List β) (value : α) : Prop :=
  ∀ rest, read (written ++ rest) = some (value,rest)

theorem reads_pure (value : α) : Reads (pure value : Reader β α) [] value := fun _ => rfl

variable {read : Reader β α}

theorem Reads.bind {next : α → Reader β γ} {front back : List β} {value : α} {result : γ}
    (first : Reads read front value) (second : Reads (next value) back result) :
    Reads (read >>= next) (front ++ back) result := by
  intro rest
  have step : (read >>= next) (front ++ back ++ rest) =
      (read (front ++ back ++ rest)).bind fun found => next found.1 found.2 := rfl
  rw [step,append_assoc,first (back ++ rest)]
  exact second rest

theorem Reads.map {written : List β} {value : α} (reads : Reads read written value) (f : α → γ) :
    Reads (f <$> read) written (f value) := by
  intro rest
  have step : (f <$> read) (written ++ rest) = (read (written ++ rest)).bind fun found => some (f found.1,found.2) := rfl
  rw [step,reads rest]
  rfl

theorem reads_take (written : List β) : Reads (take written.length) written written := by
  intro rest
  unfold take
  rw [if_pos (by simp),take_left,drop_left]

/-- The values of a list read one after the other. -/
def readAll (read : ι → Reader β α) : List ι → Reader β (List α)
  | [] => pure []
  | item :: rest => do
    let value ← read item
    let values ← readAll read rest
    return value :: values

theorem reads_readAll_nil (read : ι → Reader β α) : Reads (readAll read []) [] [] := reads_pure []

variable {values : List α}

theorem Reads.readAll_cons {read : ι → Reader β α} {item : ι} {rest : List ι} {front back : List β} {value : α}
    (first : Reads (read item) front value) (others : Reads (readAll read rest) back values) :
    Reads (readAll read (item :: rest)) (front ++ back) (value :: values) := by
  have behind : Reads (do let values ← readAll read rest; return value :: values) (back ++ []) (value :: values) :=
    others.bind (reads_pure _)
  rw [append_nil] at behind
  exact first.bind behind

theorem readAll_head {read : ι → Reader β α} {item : ι} {rest : List ι} {stream left : List β} {value : α}
    (found : readAll read (item :: rest) stream = some (value :: values,left)) :
    ∃ middle, read item stream = some (value,middle) ∧ readAll read rest middle = some (values,left) := by
  have step : readAll read (item :: rest) stream =
      (read item stream).bind fun first => (readAll read rest first.2).bind fun others =>
        some (first.1 :: others.1,others.2) := rfl
  rw [step] at found
  obtain ⟨first,head,behind⟩ := Option.bind_eq_some_iff.mp found
  obtain ⟨others,tail,same⟩ := Option.bind_eq_some_iff.mp behind
  cases same
  exact ⟨first.2,head,tail⟩

theorem readAll_length {read : ι → Reader β α} {items : List ι} {stream left : List β}
    (found : readAll read items stream = some (values,left)) : values.length = items.length := by
  induction items generalizing stream values with
  | nil =>
    cases found
    rfl
  | cons item rest ih =>
    have step : readAll read (item :: rest) stream =
        (read item stream).bind fun first => (readAll read rest first.2).bind fun others =>
          some (first.1 :: others.1,others.2) := rfl
    rw [step] at found
    obtain ⟨first,-,behind⟩ := Option.bind_eq_some_iff.mp found
    obtain ⟨others,tail,same⟩ := Option.bind_eq_some_iff.mp behind
    cases same
    rw [length_cons,ih tail,length_cons]

theorem prefix_append {stream front back : List β} (start : stream <+: front ++ back) :
    stream <+: front ∨ ∃ rest, stream = front ++ rest ∧ rest <+: back := by
  obtain ⟨left,same⟩ := start
  rcases append_eq_append_iff.mp same with ⟨middle,whole,-⟩ | ⟨middle,split,behind⟩
  · exact Or.inl ⟨middle,whole.symm⟩
  · exact Or.inr ⟨middle,split,left,behind.symm⟩

/-- A reader needs all that was written. -/
def Needs (read : Reader β α) (written : List β) : Prop :=
  ∀ front, front <+: written → front ≠ written → read front = none

theorem needs_of_take {written : List β}
    (short : ∀ k < written.length, read (written.take k) = none) : Needs read written := by
  intro front start other
  have taken := prefix_iff_eq_take.mp start
  rw [taken]
  apply short
  apply Nat.lt_of_le_of_ne start.length_le
  intro full
  rw [full,take_length] at taken
  exact other taken

/-- The values read one after the other as long as it works, and the stream behind the last one. -/
def fill (read : Reader β α) : Nat → List β → List (Option α) × Option (List β)
  | 0,stream => ([],some stream)
  | n+1,stream =>
    match read stream with
    | none => (List.replicate (n+1) none,none)
    | some (value,rest) =>
      let (others,left) := fill read n rest
      (some value :: others,left)

theorem fill_reads {write : ι → List β} {value : ι → Option α}
    (reads : ∀ item v, value item = some v → Reads read (write item) v) {items : List ι}
    (all : items.mapM value = some values) (rest : List β) :
    fill read items.length (items.flatMap write ++ rest) = (values.map some,some rest) := by
  induction items generalizing values with
  | nil =>
    cases all
    rfl
  | cons item others ih =>
    rw [mapM_cons] at all
    obtain ⟨first,known,behind⟩ := Option.bind_eq_some_iff.mp all
    obtain ⟨found,knownOthers,same⟩ := Option.bind_eq_some_iff.mp behind
    cases same
    rw [length_cons,fill,flatMap_cons,append_assoc,reads item first known]
    dsimp only
    rw [ih knownOthers]
    rfl

theorem fill_prefix {write : ι → List β} {value : ι → Option α}
    (reads : ∀ item v, value item = some v → Reads read (write item) v)
    (refuses : ∀ item rest, value item = none → read (write item ++ rest) = none)
    (needs : ∀ item, Needs read (write item)) {items : List ι} {stream tail : List β}
    (start : stream <+: items.flatMap write ++ tail) :
    (fill read items.length stream).2 = none ∨
      ∃ values rest, items.mapM value = some values ∧ stream = items.flatMap write ++ rest ∧ rest <+: tail ∧
        fill read items.length stream = (values.map some,some rest) := by
  induction items generalizing stream with
  | nil => exact Or.inr ⟨[],stream,rfl,rfl,start,rfl⟩
  | cons item others ih =>
    rw [flatMap_cons,append_assoc] at start
    rw [length_cons,fill]
    by_cases broken : read stream = none
    · rw [broken]
      exact Or.inl rfl
    · obtain ⟨rest,same,behind⟩ : ∃ rest, stream = write item ++ rest ∧ rest <+: others.flatMap write ++ tail := by
        rcases prefix_append start with inside | whole
        · by_cases all : stream = write item
          · exact ⟨[],by rw [append_nil,all],List.nil_prefix⟩
          · exact absurd (needs item stream inside all) broken
        · exact whole
      cases known : value item with
      | none =>
        rw [same] at broken
        exact absurd (refuses item rest known) broken
      | some v =>
        rw [same,reads item v known rest]
        rcases ih behind with stopped | ⟨values,rest',all,split,left,filled⟩
        · exact Or.inl stopped
        · refine Or.inr ⟨v :: values,rest',?_,?_,left,?_⟩
          · simp [known,all]
          · rw [split,flatMap_cons,append_assoc]
          · dsimp only
            rw [filled]
            rfl

end KdeWorkspace.Streams
