import MigrationLint.Progress

/-!
# Progress bars

A progress bar draws on the screen how far a counter has come. Copies of a bar share the drawing as well
as the counter. A bar is not drawn when the output is quiet or does not go to a terminal, but it counts
all the same.
-/

namespace MigrationLint

/-- What it takes to draw bars. -/
structure Display where
  /-- What is known about the drawing of a bar. -/
  Drawing : Type
  /-- The drawing of a bar that does not show. -/
  hidden : Drawing
  /-- The drawing of a bar that shows, before its total is known. -/
  visible : Drawing
  /-- Draws a bar with another total. -/
  setTotal : Nat → Drawing → Drawing
  /-- Draws a bar at another position. -/
  setPosition : Nat → Drawing → Drawing
  /-- Takes a bar from the screen. -/
  clear : Drawing → Drawing

/-- A progress bar. It refers to its drawing and to its counter, which others may share. -/
structure ProgressBar where
  /-- The number of its drawing. -/
  drawing : Nat
  /-- The number of its counter. -/
  counter : Nat
  deriving DecidableEq, Repr

/-- A number of bars, with what they refer to. -/
structure ProgressBars (d : Display) where
  /-- The bars. -/
  bars : List ProgressBar
  /-- The drawings. -/
  drawings : List d.Drawing
  /-- The counters. -/
  counts : List Nat

/-- What can be done with bars. -/
inductive BarStep
  /-- Advances a bar by one. -/
  | advance (bar : Nat)
  /-- Tells a bar its total. -/
  | setTotal (bar total : Nat)
  /-- Takes a bar from the screen. -/
  | finish (bar : Nat)
  /-- Adds a copy of a bar. -/
  | copy (bar : Nat)
  /-- Adds a bar of its own. -/
  | add (quiet isTerminal : Bool)
  deriving DecidableEq, Repr

/-- The step as one of counters. -/
def BarStep.plain : BarStep → CounterStep
  | advance bar => .advance bar
  | setTotal bar total => .setTotal bar total
  | finish bar => .finish bar
  | copy bar => .copy bar
  | add _ _ => .add

namespace ProgressBars

variable {d : Display}

/-- No bars. -/
def empty (d : Display) : ProgressBars d :=
  ⟨[], [], []⟩

/-- How far a bar has come. -/
def position (b : ProgressBars d) (bar : ProgressBar) : Nat :=
  b.counts.getD bar.counter 0

/-- The position of every bar. -/
def positions (b : ProgressBars d) : List Nat :=
  b.bars.map b.position

/-- The bars after the drawing of one of them has changed. -/
def redraw (b : ProgressBars d) (bar : ProgressBar) (f : d.Drawing → d.Drawing) : ProgressBars d :=
  { b with drawings := b.drawings.modify bar.drawing f }

/-- The bars after one of them has been advanced. -/
def advance (b : ProgressBars d) (bar : ProgressBar) : ProgressBars d :=
  let count := b.position bar + 1
  redraw { b with counts := b.counts.set bar.counter count } bar (d.setPosition count)

/-- The bars with a new one, which is drawn unless the output is quiet or does not go to a terminal. -/
def add (b : ProgressBars d) (quiet isTerminal : Bool) : ProgressBars d where
  bars := b.bars ++ [⟨b.drawings.length, b.counts.length⟩]
  drawings := b.drawings ++ [if quiet || !isTerminal then d.hidden else d.visible]
  counts := b.counts ++ [0]

/-- The bars after something has been done with one of them, if there is such a bar. -/
def withBar (b : ProgressBars d) (bar : Nat) (f : ProgressBar → ProgressBars d) : ProgressBars d :=
  match b.bars[bar]? with
  | some bar => f bar
  | none => b

/-- The bars after a step. -/
def step (b : ProgressBars d) : BarStep → ProgressBars d
  | .advance bar => b.withBar bar b.advance
  | .setTotal bar total => b.withBar bar fun bar => b.redraw bar (d.setTotal total)
  | .finish bar => b.withBar bar fun bar => b.redraw bar d.clear
  | .copy bar => b.withBar bar fun bar => { b with bars := b.bars ++ [bar] }
  | .add quiet isTerminal => b.add quiet isTerminal

/-- The bars after several steps, where there were none before. -/
def run (d : Display) (steps : List BarStep) : ProgressBars d :=
  steps.foldl step (empty d)

/-- The bars as counters. -/
def plain (b : ProgressBars d) : Counters :=
  ⟨b.bars.map ProgressBar.counter, b.counts⟩

end ProgressBars

end MigrationLint
