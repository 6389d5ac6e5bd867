import Reckoner.Schedule.Repeat

/-!
# Rotas

Tasks that share a state take turns.  Those that can go on stand in a line.  The first one goes on
until it has to wait or has done its share of operations; whoever can go on because of what it did
goes to the end of the line.  A task that has done its share rests until the line is empty or a
round of turns is over.

* `Crew` — tasks and the steps that they take.
* `Rota` — who stands in the line and who rests.
* `Crew.turn` — one turn; there is none if everybody waits.
* `Crew.workOff` — turn after turn, until everybody waits.
* `Crew.workOff_induction` — what every step keeps, they keep.
-/

namespace Reckoner

/-- Tasks of the kind `τ` that share a state of the kind `σ`. -/
structure Crew (σ τ : Type) where
  /-- The tasks, in the order in which they are called if several can go on at once. -/
  tasks : σ → List τ
  /-- A step of a task, and how many operations it took; no result if the task has to wait. -/
  step : σ → τ → Option (σ × Nat)
  /-- What a task does next takes an operation, or has to wait. -/
  needsOperation : σ → τ → Bool

/-- Whose turn is when. -/
structure Rota (τ : Type) where
  /-- Those who have been called, the first one first. -/
  line : List τ := []
  /-- Those who have done their share, the last one first. -/
  resting : List τ := []
  /-- How many turns of the round are over. -/
  turns : Nat := 0

namespace Rota

/-- How many operations a task may do in one turn. -/
def share : Nat := 128

/-- How many turns a round has at most. -/
def roundLength : Nat := 61

/-- The task stands in the line or rests. -/
def contains [DecidableEq τ] (rota : Rota τ) (task : τ) : Bool :=
  rota.line.contains task || rota.resting.contains task

/-- A new round: those who have rested go to the end of the line, the last one first. -/
def newRound (rota : Rota τ) : Rota τ := { line := rota.line ++ rota.resting }

/-- There is nobody who could go on. -/
def isEmpty (rota : Rota τ) : Bool := rota.line.isEmpty && rota.resting.isEmpty

end Rota

namespace Crew

variable {σ τ : Type} [DecidableEq τ]

/-- Calls those who can go on, but for a task whose turn it is. -/
def call (crew : Crew σ τ) (s : σ) (current : Option τ) (rota : Rota τ) : Rota τ :=
  let called := (crew.tasks s).filter fun task =>
    current ≠ some task && !rota.contains task && (crew.step s task).isSome
  { rota with line := rota.line ++ called }

/-- A task that may do so many operations has to rest. -/
def mustRest (crew : Crew σ τ) (s : σ) (task : τ) (left : Nat) : Bool :=
  left = 0 && crew.needsOperation s task

/-- The task whose turn it is takes a step, if it neither has to rest nor to wait. -/
def goOn (crew : Crew σ τ) (task : τ) : σ × Rota τ × Nat → Option (σ × Rota τ × Nat)
  | (s, rota, left) =>
    if crew.mustRest s task left then none
    else (crew.step s task).map fun (s, effort) =>
      (s, crew.call s (some task) rota, left - effort)

/-- The turn of a task. -/
def turnOf (crew : Crew σ τ) (task : τ) (s : σ) (rota : Rota τ) : σ × Rota τ :=
  let (s, rota, left) := exhaust (crew.goOn task) patience (s, rota, Rota.share)
  (s, if crew.mustRest s task left then { rota with resting := task :: rota.resting } else rota)

/-- The first one of the line has its turn, or a new round begins. -/
def turn (crew : Crew σ τ) : σ × Rota τ → Option (σ × Rota τ)
  | (s, rota) =>
    if rota.isEmpty then none
    else if Rota.roundLength ≤ rota.turns then some (s, rota.newRound)
    else
      match rota.line with
      | [] => some (s, rota.newRound)
      | task :: line => some (crew.turnOf task s { rota with line, turns := rota.turns + 1 })

/-- Everybody who can go on is called, and then there is turn after turn until all wait. -/
def workOff (crew : Crew σ τ) (s : σ) : σ :=
  (exhaust crew.turn patience (s, crew.call s none {})).1

/-! ### What a schedule keeps -/

/-- What every step keeps, a turn keeps. -/
theorem turnOf_induction (crew : Crew σ τ) {P : σ → Prop}
    (keep : ∀ s task next effort, crew.step s task = some (next, effort) → P s → P next)
    (task : τ) (s : σ) (rota : Rota τ) (h : P s) : P (crew.turnOf task s rota).1 := by
  refine exhaust_induction (P := fun a : σ × Rota τ × Nat => P a.1) ?_ patience
    (s, rota, Rota.share) h
  rintro ⟨a, r, left⟩ b hb ha
  simp only [goOn] at hb
  split at hb
  · cases hb
  · obtain ⟨⟨next, effort⟩, hstep, rfl⟩ := Option.map_eq_some_iff.1 hb
    exact keep a task next effort hstep ha

/-- What every step keeps, all turns keep. -/
theorem workOff_induction (crew : Crew σ τ) {P : σ → Prop}
    (keep : ∀ s task next effort, crew.step s task = some (next, effort) → P s → P next)
    (s : σ) (h : P s) : P (crew.workOff s) := by
  refine exhaust_induction (P := fun a : σ × Rota τ => P a.1) ?_ patience
    (s, crew.call s none {}) h
  rintro ⟨a, rota⟩ b hb ha
  simp only [turn] at hb
  split at hb
  · cases hb
  split at hb
  · cases hb; exact ha
  split at hb
  · cases hb; exact ha
  · cases hb; exact turnOf_induction crew keep _ a _ ha

end Crew

end Reckoner
