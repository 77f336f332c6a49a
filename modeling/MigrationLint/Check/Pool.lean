import MigrationLint.Check.Run
import MigrationLint.Progress

/-!
# Checking files at the same time

The candidates of a run are checked one after another, or by several workers at the same time. A
worker claims a candidate that nobody has claimed, checks it, advances the counter that all workers
share, and stores the outcome in the place of the candidate. Each of these is a step of its own, and
any worker may take the next one: a schedule says which.

Steps are whole: claims and the counter are atomic, and the files that are read do not change. When a
worker starts or is slow to go on is left to the schedule.
-/

namespace MigrationLint

/-- What a worker has done with a candidate, which is known by its number. -/
inductive Worker
  /-- It has no candidate. -/
  | idle
  /-- It has claimed a candidate. -/
  | claimed (candidate : Nat)
  /-- It has checked its candidate. -/
  | checked (candidate : Nat) (outcome : Outcome)
  /-- It has also advanced the counter. -/
  | counted (candidate : Nat) (outcome : Outcome)
  deriving DecidableEq, Repr

/-- The step of a worker. -/
inductive Move
  /-- A worker claims a candidate. -/
  | claim (worker candidate : Nat)
  /-- A worker goes on with its candidate. -/
  | proceed (worker : Nat)
  deriving DecidableEq, Repr

/-- Workers and what they share. -/
structure Pool where
  /-- The candidates that nobody has claimed. -/
  unclaimed : List Nat
  /-- The workers. -/
  workers : List Worker
  /-- A place for the outcome of each candidate. -/
  places : List (Option Outcome)
  /-- The counter. -/
  counters : Counters
  deriving DecidableEq, Repr

namespace Pool

/-- A number of workers before they claim any of a number of candidates. -/
def start (workers candidates : Nat) (counters : Counters) : Pool where
  unclaimed := List.range candidates
  workers := List.replicate workers .idle
  places := List.replicate candidates none
  counters := counters

/-- All candidates have been claimed, and no worker has one any more. -/
def isComplete (p : Pool) : Bool :=
  p.unclaimed.isEmpty && p.workers.all (· == .idle)

/-- The outcomes that have been stored, in the order of the candidates. -/
def outcomes (p : Pool) : List Outcome :=
  p.places.filterMap id

section

variable (check : Path → Outcome) (candidates : List Path)

/-- The pool after a worker in a given state has gone on. -/
def proceed (p : Pool) (w : Nat) : Worker → Option Pool
  | .idle => none
  | .claimed k =>
    candidates[k]?.map fun path =>
      { p with workers := p.workers.set w (.checked k (check path)) }
  | .checked k o =>
    some
      { p with
        workers := p.workers.set w (.counted k o)
        counters := p.counters.step (.advance 0) }
  | .counted k o =>
    some { p with workers := p.workers.set w .idle, places := p.places.set k (some o) }

/-- The pool after a step, if a worker can take it. -/
def step (p : Pool) : Move → Option Pool
  | .claim w k =>
    if p.workers[w]? = some .idle ∧ k ∈ p.unclaimed then
      some { p with unclaimed := p.unclaimed.erase k, workers := p.workers.set w (.claimed k) }
    else none
  | .proceed w => p.workers[w]?.bind (p.proceed check candidates w)

/-- The pool after the steps of a schedule, if workers can take them. -/
def execute (p : Pool) : List Move → Option Pool
  | [] => some p
  | m :: schedule => (p.step check candidates m).bind fun q => q.execute schedule

end

end Pool

/-- The outcomes for candidates that are checked one after another, and the counter afterwards. -/
def checkInTurn (check : Path → Outcome) (counters : Counters) :
    List Path → List Outcome × Counters
  | [] => ([], counters)
  | p :: candidates =>
    let rest := checkInTurn check (counters.step (.advance 0)) candidates
    (check p :: rest.1, rest.2)

/-- The outcomes for candidates that several workers have checked, and the counter afterwards. The
schedule must let the workers check all of them. -/
def checkAtOnce (check : Path → Outcome) (workers : Nat) (schedule : List Move)
    (counters : Counters) (candidates : List Path) : Option (List Outcome × Counters) :=
  match (Pool.start workers candidates.length counters).execute check candidates schedule with
  | some p => if p.isComplete then some (p.outcomes, p.counters) else none
  | none => none

namespace Checker

/-- The number of workers: the number that is asked for, if that is more than one, and otherwise the
number of cores. -/
def threads (cores : Nat) (jobs : Option Nat) : Nat :=
  (jobs.filter (1 < ·)).getD cores

variable {F : Type} [PathFilter F]

/-- The outcomes for candidates, and the counter afterwards. Only a parallel checker has workers and
a schedule. -/
def checkAll (c : Checker F) (t : FileTree) (workers : Nat) (schedule : List Move)
    (counters : Counters) (candidates : List Path) : Option (List Outcome × Counters) :=
  let check := inspect t c.parser c.method
  if c.parallel then checkAtOnce check workers schedule counters candidates
  else some (checkInTurn check counters candidates)

/-- Checks candidates. The counter is told how far it may go before, and leaves the screen after. -/
def countAll (c : Checker F) (t : FileTree) (workers : Nat) (schedule : List Move)
    (candidates : List Path) : StateT Counters Option (List Outcome) := do
  modify fun counters => counters.step (.setTotal 0 candidates.length)
  let outcomes ← fun counters => c.checkAll t workers schedule counters candidates
  modify fun counters => counters.step (.finish 0)
  return outcomes

/-- The report on given inputs, if workers follow a given schedule, and the counter afterwards. There
is none if the schedule does not let the workers check all candidates. -/
def runUnder (c : Checker F) (s : FileSystem) (workers : Nat) (schedule : List Move)
    (inputs : List Path) : Option (Report × Counters) :=
  (c.reportBy s (c.countAll s.toFileTree workers schedule) inputs).run .single

end Checker

end MigrationLint
