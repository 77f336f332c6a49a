import Mathlib.Data.List.Perm.Basic
import MigrationLint.Check.Pool
import MigrationLint.Session.Commands

/-!
# Every schedule leads to the same report

However the steps of workers are interleaved, a candidate is unclaimed, or exactly one worker has it,
or its outcome has been stored, and the counter says how many candidates have come past it. So the
workers can only end with the outcomes that a sequential run finds, in the same order.

* `Pool.Sound`: what holds before and after every step;
* `Pool.exists_execute_isComplete`: workers never get stuck before they have checked everything;
* `Checker.every_schedule_agrees`: schedules, numbers of workers and both kinds of checkers lead to the
  same report.
-/

namespace MigrationLint

namespace Worker

/-- The candidate that a worker has. -/
def candidate? : Worker → Option Nat
  | idle => none
  | claimed k | checked k _ | counted k _ => some k

/-- What a worker has found, and at which candidate. -/
def found? : Worker → Option (Nat × Outcome)
  | idle | claimed _ => none
  | checked k o | counted k o => some (k, o)

/-- The number of candidates that the worker has counted and not stored yet. -/
def ticks : Worker → Nat
  | counted _ _ => 1
  | idle | claimed _ | checked _ _ => 0

/-- The number of steps that a worker takes until it has stored an outcome. -/
def remaining : Worker → Nat
  | idle => 0
  | claimed _ => 3
  | checked _ _ => 2
  | counted _ _ => 1

/-- Only an idle worker has no candidate. -/
theorem candidate?_eq_none_iff {w : Worker} : w.candidate? = none ↔ w = idle := by
  cases w <;> simp [candidate?]

/-- The candidates that workers have. -/
def held (workers : List Worker) : List Nat :=
  workers.filterMap candidate?

theorem held_cons (w : Worker) (workers : List Worker) :
    held (w :: workers) = w.candidate?.toList ++ held workers := by
  rw [held, List.filterMap_cons]
  cases w.candidate? <;> rfl

/-- Replacing a worker leaves the others as they are. -/
theorem exists_others {workers : List Worker} {w : Nat} {a : Worker} (h : workers[w]? = some a) :
    ∃ others, workers.Perm (a :: others) ∧ ∀ b, (workers.set w b).Perm (b :: others) := by
  obtain ⟨hw, rfl⟩ := List.getElem?_eq_some_iff.mp h
  exact ⟨workers.eraseIdx w, (List.getElem_cons_eraseIdx_perm hw).symm,
    List.set_perm_cons_eraseIdx hw⟩

/-- Replacing a worker changes the candidates that workers have by what that worker has. -/
theorem exists_held {workers : List Worker} {w : Nat} {a : Worker} (h : workers[w]? = some a) :
    ∃ rest, (held workers).Perm (a.candidate?.toList ++ rest) ∧
      ∀ b, (held (workers.set w b)).Perm (b.candidate?.toList ++ rest) := by
  obtain ⟨others, hbefore, hafter⟩ := exists_others h
  refine ⟨held others, ?_, fun b => ?_⟩
  · rw [← held_cons]
    exact hbefore.filterMap _
  · rw [← held_cons]
    exact (hafter b).filterMap _

/-- A number that is added up over workers. -/
def total (f : Worker → Nat) : List Worker → Nat
  | [] => 0
  | w :: workers => f w + total f workers

/-- Totals do not depend on the order of the workers. -/
theorem total_perm (f : Worker → Nat) {workers workers' : List Worker}
    (h : workers.Perm workers') : total f workers = total f workers' := by
  induction h with
  | nil => rfl
  | cons w h ih => rw [total, total, ih]
  | swap w w' workers => exact Nat.add_left_comm ..
  | trans h h' ih ih' => exact ih.trans ih'

/-- Replacing a worker changes what workers add up to by what that worker adds. -/
theorem total_set_add (f : Worker → Nat) {workers : List Worker} {w : Nat} {a : Worker}
    (h : workers[w]? = some a) (b : Worker) :
    total f (workers.set w b) + f a = total f workers + f b := by
  obtain ⟨others, hbefore, hafter⟩ := exists_others h
  rw [total_perm f hbefore, total_perm f (hafter b), total, total]
  omega

/-- Workers have the candidates that they have counted. -/
theorem total_ticks_le (workers : List Worker) : total ticks workers ≤ (held workers).length := by
  induction workers with
  | nil => exact Nat.le_refl 0
  | cons w workers ih =>
    have hle : w.ticks ≤ w.candidate?.toList.length := by
      cases w <;> simp [ticks, candidate?]
    rw [total, held_cons, List.length_append]
    omega

end Worker

namespace Pool

variable {check : Path → Outcome} {candidates : List Path} {p q : Pool}

/-! ## Steps -/

/-- The steps that a pool can take. -/
inductive Next (check : Path → Outcome) (candidates : List Path) (p : Pool) : Pool → Prop
  /-- An idle worker claims a candidate. -/
  | claim {w k : Nat} (hworker : p.workers[w]? = some .idle) (hunclaimed : k ∈ p.unclaimed) :
      Next check candidates p
        { p with unclaimed := p.unclaimed.erase k, workers := p.workers.set w (.claimed k) }
  /-- A worker checks the candidate that it has claimed. -/
  | check {w k : Nat} {path : Path} (hworker : p.workers[w]? = some (.claimed k))
      (hpath : candidates[k]? = some path) :
      Next check candidates p { p with workers := p.workers.set w (.checked k (check path)) }
  /-- A worker counts the candidate that it has checked. -/
  | count {w k : Nat} {o : Outcome} (hworker : p.workers[w]? = some (.checked k o)) :
      Next check candidates p
        { p with
          workers := p.workers.set w (.counted k o)
          counters := p.counters.step (.advance 0) }
  /-- A worker stores what it has found. -/
  | store {w k : Nat} {o : Outcome} (hworker : p.workers[w]? = some (.counted k o)) :
      Next check candidates p
        { p with workers := p.workers.set w .idle, places := p.places.set k (some o) }

/-- The steps in terms of moves. -/
theorem exists_step_eq_some_iff :
    (∃ m, p.step check candidates m = some q) ↔ Next check candidates p q := by
  constructor
  · rintro ⟨m, hstep⟩
    cases m with
    | claim w k =>
      rw [step] at hstep
      split at hstep
      · next h =>
        obtain rfl := Option.some.inj hstep
        exact .claim h.1 h.2
      · nomatch hstep
    | proceed w =>
      obtain ⟨worker, hworker, hproceed⟩ := Option.bind_eq_some_iff.mp hstep
      cases worker with
      | idle => nomatch hproceed
      | claimed k =>
        obtain ⟨path, hpath, rfl⟩ := Option.map_eq_some_iff.mp hproceed
        exact .check hworker hpath
      | checked k o =>
        obtain rfl := Option.some.inj hproceed
        exact .count hworker
      | counted k o =>
        obtain rfl := Option.some.inj hproceed
        exact .store hworker
  · intro hnext
    cases hnext with
    | @claim w k hworker hunclaimed =>
      exact ⟨.claim w k, by rw [step, if_pos ⟨hworker, hunclaimed⟩]⟩
    | @check w k path hworker hpath =>
      exact ⟨.proceed w, by rw [step, hworker, Option.bind_some, proceed, hpath, Option.map_some]⟩
    | @count w k o hworker | @store w k o hworker =>
      exact ⟨.proceed w, by rw [step, hworker, Option.bind_some, proceed]⟩

/-! ## What steps preserve -/

/-- The candidates whose places are filled. -/
def filled (places : List (Option Outcome)) : List Nat :=
  (List.range places.length).filter fun k => places[k]?.join.isSome

/-- Filling an empty place fills no other one. -/
theorem filled_set_perm {places : List (Option Outcome)} {k : Nat} (o : Outcome)
    (h : places[k]? = some none) : (filled (places.set k (some o))).Perm (k :: filled places) := by
  have hk : k < places.length := (List.getElem?_eq_some_iff.mp h).1
  have hempty : k ∉ filled places := by simp [filled, h]
  have hnodup : ∀ l, (filled l).Nodup := fun l => List.nodup_range.filter _
  rw [List.perm_ext_iff_of_nodup (hnodup _) (List.nodup_cons.mpr ⟨hempty, hnodup _⟩)]
  intro j
  rw [List.mem_cons, filled, filled, List.mem_filter, List.mem_filter, List.length_set]
  by_cases hj : j = k
  · simp [hj, hk]
  · simp [hj, List.getElem?_set_ne (Ne.symm hj)]

/-- The number of candidates that have been counted. -/
def ticks (p : Pool) : Nat :=
  Worker.total Worker.ticks p.workers + (filled p.places).length

/-- What holds of a pool at any time. -/
structure Sound (check : Path → Outcome) (candidates : List Path) (p : Pool) : Prop where
  /-- There is a place for each candidate. -/
  places : p.places.length = candidates.length
  /-- Every candidate is unclaimed, or one worker has it, or its outcome has been stored. -/
  account : (p.unclaimed ++ Worker.held p.workers ++ filled p.places).Perm
    (List.range candidates.length)
  /-- What a worker has found is what there is at its candidate. -/
  found : ∀ worker ∈ p.workers, ∀ k o, worker.found? = some (k, o) →
    candidates[k]?.map check = some o
  /-- What has been stored is what there is at the candidate. -/
  stored : ∀ (k : Nat) (o : Outcome), p.places[k]? = some (some o) →
    candidates[k]?.map check = some o
  /-- The counter stands at the number of candidates that have been counted. -/
  counters : p.counters = ⟨[0], [p.ticks]⟩

/-- The place of a candidate that a worker has is empty. -/
theorem Sound.place_of_held (h : Sound check candidates p) {k : Nat}
    (hk : k ∈ Worker.held p.workers) : p.places[k]? = some none := by
  have hlt : k < p.places.length := by
    have hmem : k ∈ p.unclaimed ++ Worker.held p.workers ++ filled p.places :=
      List.mem_append_left _ (List.mem_append_right _ hk)
    rw [h.places]
    exact List.mem_range.mp (h.account.mem_iff.mp hmem)
  have hnodup : (p.unclaimed ++ Worker.held p.workers ++ filled p.places).Nodup :=
    h.account.nodup_iff.mpr List.nodup_range
  -- no candidate occurs twice in the account
  have hempty : k ∉ filled p.places := fun hfilled =>
    (List.nodup_append.mp hnodup).2.2 k (List.mem_append_right _ hk) k hfilled rfl
  rw [filled, List.mem_filter, List.mem_range] at hempty
  rw [List.getElem?_eq_getElem hlt] at hempty ⊢
  cases hplace : p.places[k] with
  | none => rfl
  | some o => exact absurd ⟨hlt, by rw [hplace]; rfl⟩ hempty

/-- Workers who have not started are sound. -/
theorem sound_start (check : Path → Outcome) (candidates : List Path) (workers : Nat) :
    Sound check candidates (start workers candidates.length .single) := by
  have hheld : Worker.held (List.replicate workers .idle) = [] := by
    simp [Worker.held, Worker.candidate?]
  have hfilled : filled (List.replicate candidates.length none) = [] := by
    rw [filled, List.filter_eq_nil_iff]
    intro k _
    rw [List.getElem?_replicate]
    split <;> simp
  have hticks : Worker.total Worker.ticks (List.replicate workers .idle) = 0 := by
    have hle := Worker.total_ticks_le (List.replicate workers .idle)
    rw [hheld] at hle
    exact Nat.le_zero.mp hle
  constructor
  case places => exact List.length_replicate
  case account => simp only [start, hheld, hfilled, List.append_nil, List.Perm.refl]
  case found =>
    intro worker hworker k o hfound
    obtain rfl := List.eq_of_mem_replicate hworker
    nomatch hfound
  case stored =>
    intro k o hplace
    simp [start, List.getElem?_replicate] at hplace
  case counters => rw [ticks, start, hfilled, hticks]; rfl

/-- A step of a worker keeps the account if what that worker has moves to where it comes from. -/
theorem account_of_set {unclaimed unclaimed' places places' : List Nat} {workers : List Worker}
    {w : Nat} {a : Worker} (hworker : workers[w]? = some a) (b : Worker)
    (h : (unclaimed' ++ b.candidate?.toList ++ places').Perm
      (unclaimed ++ a.candidate?.toList ++ places)) :
    (unclaimed' ++ Worker.held (workers.set w b) ++ places').Perm
      (unclaimed ++ Worker.held workers ++ places) := by
  obtain ⟨rest, hbefore, hafter⟩ := Worker.exists_held hworker
  -- counting does away with the order in which the parts of the account stand
  rw [List.perm_iff_count] at h ⊢
  intro k
  have hk := h k
  have hheld := hbefore.count_eq k
  have hset := (hafter b).count_eq k
  simp only [List.count_append] at hk hheld hset ⊢
  omega

/-- A step keeps a pool sound. -/
theorem Sound.next (h : Sound check candidates p) (hnext : Next check candidates p q) :
    Sound check candidates q := by
  -- only the worker that takes the step can have found something else than before
  have hfound : ∀ {w : Nat} {b : Worker},
      (∀ k o, b.found? = some (k, o) → candidates[k]?.map check = some o) →
      ∀ worker ∈ p.workers.set w b, ∀ k o, worker.found? = some (k, o) →
        candidates[k]?.map check = some o := by
    intro w b hb worker hworker
    rcases List.mem_or_eq_of_mem_set hworker with hmem | rfl
    · exact h.found worker hmem
    · exact hb
  cases hnext with
  | @claim w k hworker hunclaimed =>
    -- the candidate moves from those that nobody has claimed to the worker
    have hmoved : (p.unclaimed.erase k ++ [k]).Perm p.unclaimed :=
      (List.perm_append_singleton ..).trans (List.perm_cons_erase hunclaimed).symm
    have haccount := account_of_set (a := .idle) hworker (.claimed k)
      ((hmoved.trans (.of_eq (List.append_nil _).symm)).append_right (filled p.places))
    have hticks : Worker.total Worker.ticks (p.workers.set w (.claimed k)) =
        Worker.total Worker.ticks p.workers := Worker.total_set_add Worker.ticks hworker (.claimed k)
    refine ⟨h.places, haccount.trans h.account, hfound nofun, h.stored, ?_⟩
    rw [h.counters, ticks, ticks, hticks]
  | @check w k path hworker hpath =>
    -- the worker keeps its candidate, here and in the next step
    have haccount := account_of_set hworker (.checked k (check path))
      (.refl (p.unclaimed ++ [k] ++ filled p.places))
    have hticks : Worker.total Worker.ticks (p.workers.set w (.checked k (check path))) =
        Worker.total Worker.ticks p.workers :=
      Worker.total_set_add Worker.ticks hworker (.checked k (check path))
    refine ⟨h.places, haccount.trans h.account, hfound ?_, h.stored, ?_⟩
    · rintro _ _ ⟨⟩
      rw [hpath, Option.map_some]
    · rw [h.counters, ticks, ticks, hticks]
  | @count w k o hworker =>
    have haccount := account_of_set hworker (.counted k o)
      (.refl (p.unclaimed ++ [k] ++ filled p.places))
    have hticks : Worker.total Worker.ticks (p.workers.set w (.counted k o)) =
        Worker.total Worker.ticks p.workers + 1 :=
      Worker.total_set_add Worker.ticks hworker (.counted k o)
    have hsame := h.found _ (List.mem_of_getElem? hworker) k o rfl
    refine ⟨h.places, haccount.trans h.account, hfound ?_, h.stored, ?_⟩
    · rintro _ _ ⟨⟩
      exact hsame
    · rw [h.counters, ticks, ticks, hticks, Nat.add_right_comm]
      rfl
  | @store w k o hworker =>
    have hheld : k ∈ Worker.held p.workers :=
      List.mem_filterMap.mpr ⟨_, List.mem_of_getElem? hworker, rfl⟩
    -- the worker has the candidate, so its place is empty until now
    have hfilled := filled_set_perm o (h.place_of_held hheld)
    have hmoved : (p.unclaimed ++ [] ++ filled (p.places.set k (some o))).Perm
        (p.unclaimed ++ [k] ++ filled p.places) := by
      rw [List.append_nil, List.append_assoc]
      exact hfilled.append_left p.unclaimed
    have haccount := account_of_set hworker .idle hmoved
    have hticks : Worker.total Worker.ticks (p.workers.set w .idle) + 1 =
        Worker.total Worker.ticks p.workers := Worker.total_set_add Worker.ticks hworker .idle
    refine ⟨List.length_set.trans h.places, haccount.trans h.account, hfound nofun, ?_, ?_⟩
    · intro k' o' hplace
      rw [List.getElem?_set] at hplace
      split at hplace
      · next heq =>
        obtain ⟨-, rfl⟩ : _ ∧ o = o' := by simpa using hplace
        exact heq ▸ h.found _ (List.mem_of_getElem? hworker) k o rfl
      · exact h.stored k' o' hplace
    · rw [h.counters, ticks, ticks, hfilled.length_eq, List.length_cons, ← hticks,
        Nat.add_right_comm, Nat.add_assoc]

/-- Whatever steps workers take, the pool stays sound. -/
theorem Sound.execute (h : Sound check candidates p) {schedule : List Move}
    (hexecute : p.execute check candidates schedule = some q) : Sound check candidates q := by
  induction schedule generalizing p with
  | nil => exact Option.some.inj hexecute ▸ h
  | cons m schedule ih =>
    obtain ⟨r, hstep, hrest⟩ := Option.bind_eq_some_iff.mp hexecute
    exact ih (h.next (exists_step_eq_some_iff.mp ⟨m, hstep⟩)) hrest

/-! ## The counter and the outcomes -/

/-- The counter stands at a number that is at most the number of candidates. -/
theorem Sound.ticks_le (h : Sound check candidates p) : p.ticks ≤ candidates.length := by
  have hticks := Worker.total_ticks_le p.workers
  have htotal := h.account.length_eq
  rw [List.length_append, List.length_append, List.length_range] at htotal
  rw [ticks]
  omega

/-- A pool is complete iff nothing is left to claim and no worker holds a candidate. -/
theorem isComplete_iff : p.isComplete = true ↔ p.unclaimed = [] ∧ Worker.held p.workers = [] := by
  simp [isComplete, Worker.held, Worker.candidate?_eq_none_iff]

/-- Once a pool is complete, all places are filled. -/
theorem Sound.filled_perm (h : Sound check candidates p) (hcomplete : p.isComplete = true) :
    (filled p.places).Perm (List.range candidates.length) := by
  obtain ⟨hunclaimed, hheld⟩ := isComplete_iff.mp hcomplete
  simpa only [hunclaimed, hheld, List.nil_append] using h.account

/-- Once a pool is complete, its outcomes are what there is at the candidates, in their order. -/
theorem Sound.outcomes_eq (h : Sound check candidates p) (hcomplete : p.isComplete = true) :
    p.outcomes = candidates.map check := by
  have hplaces : p.places = candidates.map fun path => some (check path) := by
    refine List.ext_getElem (h.places.trans (List.length_map _).symm) fun k hk hk' => ?_
    -- no place is left empty, and whatever is in a place is right
    have hfilled : k ∈ filled p.places := by
      rw [(h.filled_perm hcomplete).mem_iff, List.mem_range, ← h.places]
      exact hk
    obtain ⟨o, ho⟩ : ∃ o, p.places[k] = some o := by
      simpa [filled, hk, Option.isSome_iff_exists] using hfilled
    have hsame := h.stored k o (List.getElem?_eq_some_iff.mpr ⟨hk, ho⟩)
    obtain ⟨path, hpath, rfl⟩ := Option.map_eq_some_iff.mp hsame
    obtain ⟨_, rfl⟩ := List.getElem?_eq_some_iff.mp hpath
    rw [ho, List.getElem_map]
  rw [outcomes, hplaces, List.filterMap_map]
  exact congrFun List.filterMap_eq_map candidates

/-- A complete pool has counted all candidates. -/
theorem Sound.ticks_eq (h : Sound check candidates p) (hcomplete : p.isComplete = true) :
    p.ticks = candidates.length := by
  -- every candidate that has been stored has been counted, and these are all of them
  have hfilled := (h.filled_perm hcomplete).length_eq
  have hle := h.ticks_le
  rw [List.length_range] at hfilled
  rw [ticks] at hle ⊢
  omega

/-! ## Schedules that complete -/

/-- The number of steps that are left. -/
def remaining (p : Pool) : Nat :=
  4 * p.unclaimed.length + Worker.total Worker.remaining p.workers

/-- Every step leaves one step less. -/
theorem Next.remaining_add_one (hnext : Next check candidates p q) :
    q.remaining + 1 = p.remaining := by
  cases hnext with
  | @claim w k hworker hunclaimed =>
    have hsum := Worker.total_set_add Worker.remaining hworker (.claimed k)
    have hlength := List.length_erase_add_one hunclaimed
    simp only [remaining, Worker.remaining] at hsum ⊢
    omega
  | @check w k path hworker hpath =>
    have hsum := Worker.total_set_add Worker.remaining hworker (.checked k (check path))
    simp only [remaining, Worker.remaining] at hsum ⊢
    omega
  | @count w k o hworker =>
    have hsum := Worker.total_set_add Worker.remaining hworker (.counted k o)
    simp only [remaining, Worker.remaining] at hsum ⊢
    omega
  | @store w k o hworker =>
    have hsum := Worker.total_set_add Worker.remaining hworker .idle
    simp only [remaining, Worker.remaining] at hsum ⊢
    omega

/-- As long as a pool with workers is not complete, one of them can take a step. -/
theorem Sound.exists_next (h : Sound check candidates p) (hworkers : p.workers ≠ [])
    (hincomplete : p.isComplete ≠ true) : ∃ q, Next check candidates p q := by
  by_cases hbusy : ∃ worker ∈ p.workers, worker ≠ .idle
  · -- a worker with a candidate can go on
    obtain ⟨worker, hmem, hworker⟩ := hbusy
    obtain ⟨w, hw⟩ := List.getElem?_of_mem hmem
    cases worker with
    | idle => exact absurd rfl hworker
    | claimed k =>
      have hheld : k ∈ Worker.held p.workers := List.mem_filterMap.mpr ⟨_, hmem, rfl⟩
      have hk := (List.getElem?_eq_some_iff.mp (h.place_of_held hheld)).1
      rw [h.places] at hk
      exact ⟨_, .check hw (List.getElem?_eq_getElem hk)⟩
    | checked k o => exact ⟨_, .count hw⟩
    | counted k o => exact ⟨_, .store hw⟩
  · -- all workers are idle, so what is left is unclaimed
    have hidle : ∀ worker ∈ p.workers, worker = .idle := by
      simpa using hbusy
    obtain ⟨worker, rest, hcons⟩ := List.exists_cons_of_ne_nil hworkers
    have hunclaimed : p.unclaimed ≠ [] := by
      intro hnil
      exact hincomplete (by simpa [isComplete, hnil] using hidle)
    obtain ⟨k, hk⟩ := List.exists_mem_of_ne_nil _ hunclaimed
    have hfirst : p.workers[0]? = some .idle := by
      rw [hcons, List.getElem?_cons_zero, hidle worker (hcons ▸ List.mem_cons_self)]
    exact ⟨_, .claim hfirst hk⟩

/-- No worker leaves, and none comes. -/
theorem Next.length_workers (hnext : Next check candidates p q) :
    q.workers.length = p.workers.length := by
  cases hnext <;> exact List.length_set

/-- Workers can always go on until they have checked everything. -/
theorem Sound.exists_execute_isComplete (h : Sound check candidates p) (hworkers : p.workers ≠ []) :
    ∃ schedule q, p.execute check candidates schedule = some q ∧ q.isComplete = true := by
  -- by induction on the number of steps that are left
  induction hleft : p.remaining using Nat.strongRecOn generalizing p with
  | ind n ih =>
    by_cases hcomplete : p.isComplete = true
    · exact ⟨[], p, rfl, hcomplete⟩
    · obtain ⟨q, hnext⟩ := h.exists_next hworkers hcomplete
      have hless : q.remaining < n := by
        rw [← hleft, ← hnext.remaining_add_one]
        exact Nat.lt_succ_self _
      have hq : q.workers ≠ [] := by
        rwa [ne_eq, ← List.length_eq_zero_iff, hnext.length_workers, List.length_eq_zero_iff]
      obtain ⟨schedule, r, hexecute, hr⟩ := ih _ hless (h.next hnext) hq rfl
      obtain ⟨m, hstep⟩ := exists_step_eq_some_iff.mpr hnext
      exact ⟨m :: schedule, r, by rw [Pool.execute, hstep]; exact hexecute, hr⟩

end Pool

/-! ## Runs -/

/-- Candidates that are checked one after another have the outcomes that there are for them, and the
counter has been advanced once for each. -/
theorem checkInTurn_eq (check : Path → Outcome) (n : Nat) (candidates : List Path) :
    checkInTurn check ⟨[0], [n]⟩ candidates =
      (candidates.map check, ⟨[0], [n + candidates.length]⟩) := by
  induction candidates generalizing n with
  | nil => rfl
  | cons p candidates ih =>
    have hadvance : (⟨[0], [n]⟩ : Counters).step (.advance 0) = ⟨[0], [n + 1]⟩ := rfl
    rw [checkInTurn, hadvance, ih, List.map_cons, List.length_cons, Nat.add_right_comm,
      Nat.add_assoc]

/-- Candidates are checked where those before them have left off. -/
theorem checkInTurn_append (check : Path → Outcome) (counters : Counters) (done rest : List Path) :
    checkInTurn check counters (done ++ rest) =
      ((checkInTurn check counters done).1 ++
          (checkInTurn check (checkInTurn check counters done).2 rest).1,
        (checkInTurn check (checkInTurn check counters done).2 rest).2) := by
  induction done generalizing counters with
  | nil => rfl
  | cons p done ih =>
    rw [List.cons_append, checkInTurn, ih]
    rfl

/-- Candidates that several workers check have the outcomes that there are for them, and the counter
has been advanced once for each. -/
theorem checkAtOnce_eq {check : Path → Outcome} {workers : Nat} {schedule : List Move}
    {candidates : List Path} {result : List Outcome × Counters}
    (h : checkAtOnce check workers schedule .single candidates = some result) :
    result = (candidates.map check, ⟨[0], [candidates.length]⟩) := by
  rw [checkAtOnce] at h
  split at h
  · next p hexecute =>
    split at h
    · next hcomplete =>
      obtain rfl := Option.some.inj h
      have hsound := (Pool.sound_start check candidates workers).execute hexecute
      rw [hsound.outcomes_eq hcomplete, hsound.counters, hsound.ticks_eq hcomplete]
    · nomatch h
  · nomatch h

/-- Some schedule lets one or more workers check all candidates. -/
theorem exists_checkAtOnce_eq_some (check : Path → Outcome) {workers : Nat} (hworkers : 0 < workers)
    (candidates : List Path) :
    ∃ schedule result, checkAtOnce check workers schedule .single candidates = some result := by
  have hsome : (Pool.start workers candidates.length .single).workers ≠ [] := by
    simpa [Pool.start] using Nat.ne_of_gt hworkers
  obtain ⟨schedule, p, hexecute, hcomplete⟩ :=
    (Pool.sound_start check candidates workers).exists_execute_isComplete hsome
  exact ⟨schedule, _, by rw [checkAtOnce, hexecute]; exact if_pos hcomplete⟩

namespace Checker

/-- Checkers of both kinds have the outcomes that there are for candidates, and advance the counter
once for each. -/
theorem checkAll_eq {F : Type} {c : Checker F} {t : FileTree} {workers : Nat}
    {schedule : List Move} {candidates : List Path} {result : List Outcome × Counters}
    (h : c.checkAll t workers schedule .single candidates = some result) :
    result = (candidates.map (inspect t c.parser c.method), ⟨[0], [candidates.length]⟩) := by
  rw [checkAll] at h
  split at h
  · exact checkAtOnce_eq h
  · rw [← Option.some.inj h, Counters.single, checkInTurn_eq, Nat.zero_add]

/-- Telling the counter how far it may go, and taking it from the screen, does not change where it
stands. -/
theorem countAll_run {F : Type} (c : Checker F) (t : FileTree) (workers : Nat)
    (schedule : List Move) (candidates : List Path) (counters : Counters) :
    (c.countAll t workers schedule candidates).run counters =
      c.checkAll t workers schedule counters candidates := by
  change (c.checkAll t workers schedule counters candidates).bind (fun x => some (x.1, x.2)) = _
  cases c.checkAll t workers schedule counters candidates <;> rfl

variable {F : Type} [PathFilter F] {c : Checker F} {s : FileSystem} {inputs : List Path}

/-- However its candidates are checked, a run comes to the same report, and the counter stands at the
number of files that the report counts. -/
theorem runUnder_eq {workers : Nat} {schedule : List Move} {result : Report × Counters}
    (h : c.runUnder s workers schedule inputs = some result) :
    result = (c.run s inputs, ⟨[0], [ticks (c.run s inputs)]⟩) := by
  rw [runUnder] at h
  cases hresolve : s.resolve c.filter inputs with
  | error failure =>
    rw [reportBy_of_error hresolve] at h
    rw [run_of_error hresolve]
    exact (Option.some.inj h).symm
  | ok candidates =>
    by_cases hsome : candidates = []
    · subst hsome
      rw [reportBy_of_nil hresolve] at h
      rw [run_of_nil hresolve]
      exact (Option.some.inj h).symm
    · rw [reportBy_of_ok hresolve hsome, StateT.run_bind, countAll_run] at h
      rw [run_of_ok hresolve hsome]
      obtain ⟨all, hall, hresult⟩ := Option.bind_eq_some_iff.mp h
      obtain rfl := checkAll_eq hall
      obtain rfl := Option.some.inj hresult
      simp only [ticks, Report.filesAnalyzed, Report.completed, List.length_map]

/-- A run can be completed by one or more workers. -/
theorem exists_runUnder_eq_some (c : Checker F) (s : FileSystem) {workers : Nat}
    (hworkers : 0 < workers) (inputs : List Path) :
    ∃ schedule result, c.runUnder s workers schedule inputs = some result := by
  have hall : ∀ candidates, ∃ schedule result,
      c.checkAll s.toFileTree workers schedule .single candidates = some result := by
    intro candidates
    by_cases hparallel : c.parallel = true
    · simp only [checkAll, hparallel, if_true]
      exact exists_checkAtOnce_eq_some _ hworkers candidates
    · simp only [checkAll, hparallel]
      exact ⟨[], _, rfl⟩
  unfold runUnder
  cases hresolve : s.resolve c.filter inputs with
  | error failure => exact ⟨[], _, by rw [reportBy_of_error hresolve]; rfl⟩
  | ok candidates =>
    by_cases hsome : candidates = []
    · subst hsome
      exact ⟨[], _, by rw [reportBy_of_nil hresolve]; rfl⟩
    · obtain ⟨schedule, result, hresult⟩ := hall candidates
      refine ⟨schedule, (.completed inputs c.method result.1, result.2), ?_⟩
      rw [reportBy_of_ok hresolve hsome, StateT.run_bind, countAll_run, hresult]
      rfl

/-- A run counts the candidates that its inputs are resolved to. -/
theorem ticks_run_of_resolve {candidates : List Path}
    (hresolve : s.resolve c.filter inputs = .ok candidates) :
    ticks (c.run s inputs) = candidates.length := by
  by_cases hsome : candidates = []
  · subst hsome
    rw [run_of_nil hresolve]
    rfl
  · rw [run_of_ok hresolve hsome]
    exact List.length_map _

/-- A run that is aborted counts nothing. -/
theorem ticks_run_of_abort (habort : (c.run s inputs).abort ≠ none) :
    ticks (c.run s inputs) = 0 := by
  cases hresolve : s.resolve c.filter inputs with
  | error failure =>
    rw [run_of_error hresolve]
    rfl
  | ok candidates =>
    by_cases hsome : candidates = []
    · subst hsome
      rw [run_of_nil hresolve]
      rfl
    · rw [run_of_ok hresolve hsome] at habort
      exact absurd rfl habort

/-- There is always a worker. -/
theorem threads_pos {cores : Nat} (hcores : 0 < cores) (jobs : Option Nat) :
    0 < threads cores jobs := by
  rw [threads]
  cases hjobs : jobs.filter (1 < ·) with
  | none => exact hcores
  | some n =>
    obtain ⟨-, hn⟩ := Option.filter_eq_some_iff.mp hjobs
    exact Nat.lt_of_succ_lt (of_decide_eq_true hn)

/-- Settings have a checker whether or not files are checked at the same time, and by however many
workers, and it comes to the same reports. -/
theorem exists_ofSettings_run_eq {parser : SourceParser} {settings : Settings} {parallel : Bool}
    {jobs : Option Nat} {c : Checker}
    (h : ofSettings parser { settings with parallel := parallel } jobs = .ok c) (parallel' : Bool)
    (jobs' : Option Nat) :
    ∃ c', ofSettings parser { settings with parallel := parallel' } jobs' = .ok c' ∧
      ∀ s inputs, c.run s inputs = c'.run s inputs := by
  simp only [ofSettings] at h ⊢
  cases hfilter : EntryFilter.ofTexts settings.suffix settings.exclude with
  | error failure =>
    rw [hfilter] at h
    nomatch h
  | ok filter =>
    rw [hfilter] at h
    obtain rfl := Except.ok.inj h
    exact ⟨_, rfl, fun _ _ => rfl⟩

/-- Workers who check candidates on the same files end with the outcomes of checking them one after
another and with a counter that stands at the number of candidates, and it never passes that number.
A run comes to the same report under every schedule, also if settings differ in whether files are
checked at the same time and in how many workers there are. -/
theorem every_schedule_agrees (s : FileSystem) (inputs : List Path) :
    (∀ (parser : SourceParser) (method : String) (candidates : List Path) (workers : Nat)
        (schedule : List Move) (p : Pool),
      (Pool.start workers candidates.length .single).execute (inspect s.toFileTree parser method)
          candidates schedule = some p →
        (∃ n ≤ candidates.length, p.counters.positions = [n]) ∧
        (p.isComplete = true →
          p.outcomes = candidates.map (inspect s.toFileTree parser method) ∧
          p.counters.positions = [candidates.length])) ∧
    (∀ (parser : SourceParser) (method : String) (done rest : List Path),
      ∃ counters, checkInTurn (inspect s.toFileTree parser method) .single done =
          (done.map (inspect s.toFileTree parser method), counters) ∧
        counters.positions = [done.length] ∧
        (checkInTurn (inspect s.toFileTree parser method) .single (done ++ rest)).2 =
          (checkInTurn (inspect s.toFileTree parser method) counters rest).2) ∧
    (∀ (c : Checker F) (workers : Nat) (schedule : List Move) (r : Report) (counters : Counters),
      c.runUnder s workers schedule inputs = some (r, counters) →
        r = c.run s inputs ∧
        (∀ candidates, s.resolve c.filter inputs = .ok candidates →
          counters.positions = [candidates.length]) ∧
        (r.abort ≠ none → counters.positions = [0])) ∧
    (∀ (parser : SourceParser) (settings : Settings) (cores : Nat) (parallel : Bool)
        (jobs : Option Nat) (c : Checker), 0 < cores →
      ofSettings parser { settings with parallel := parallel } (World.workers jobs) = .ok c →
        (∃ schedule result,
          c.runUnder s (threads cores (World.workers jobs)) schedule inputs = some result) ∧
        ∀ (parallel' : Bool) (jobs' : Option Nat),
          ∃ c', ofSettings parser { settings with parallel := parallel' }
              (World.workers jobs') = .ok c' ∧
            ∀ schedule schedule' result result',
              c.runUnder s (threads cores (World.workers jobs)) schedule inputs = some result →
              c'.runUnder s (threads cores (World.workers jobs')) schedule' inputs = some result' →
              result = result') := by
  refine ⟨?_, ?_, ?_, ?_⟩
  · intro parser method candidates workers schedule p hexecute
    have hsound := (Pool.sound_start _ candidates workers).execute hexecute
    have hposition : p.counters.positions = [p.ticks] := by
      rw [hsound.counters]
      rfl
    refine ⟨⟨p.ticks, hsound.ticks_le, hposition⟩, fun hcomplete => ?_⟩
    exact ⟨hsound.outcomes_eq hcomplete, hsound.ticks_eq hcomplete ▸ hposition⟩
  · intro parser method done rest
    have hdone := checkInTurn_eq (inspect s.toFileTree parser method) 0 done
    rw [Nat.zero_add] at hdone
    refine ⟨_, hdone, rfl, ?_⟩
    rw [checkInTurn_append, Counters.single, hdone]
  · intro c workers schedule r counters hrun
    obtain ⟨rfl, rfl⟩ := Prod.mk.inj (runUnder_eq hrun)
    refine ⟨rfl, fun candidates hresolve => ?_, fun habort => ?_⟩
    · rw [ticks_run_of_resolve hresolve]
      rfl
    · rw [ticks_run_of_abort habort]
      rfl
  · intro parser settings cores parallel jobs c hcores hchecker
    refine ⟨exists_runUnder_eq_some c s (threads_pos hcores _) inputs, fun parallel' jobs' => ?_⟩
    obtain ⟨c', hchecker', hsame⟩ :=
      exists_ofSettings_run_eq hchecker parallel' (World.workers jobs')
    refine ⟨c', hchecker', fun schedule schedule' result result' hresult hresult' => ?_⟩
    rw [runUnder_eq hresult, runUnder_eq hresult', hsame]

end Checker

/-- Two files. -/
def twoFiles : FileTree where
  entries := [(["a.php"], .file []), (["b.php"], .file [])]

/-- Two workers overtake each other at the two files, and three workers come to the same report as
one. -/
theorem twoFiles_every_schedule_agrees :
    (∃ p, (Pool.start 2 2 .single).execute (inspect twoFiles (fun _ _ => .ok ⟨[]⟩) "down")
        [⟨"a.php"⟩, ⟨"b.php"⟩]
        [.claim 0 1, .claim 1 0, .proceed 0, .proceed 1, .proceed 1, .proceed 1, .proceed 0,
          .proceed 0] = some p ∧
      p.outcomes = [⟨"a.php"⟩, ⟨"b.php"⟩].map (inspect twoFiles (fun _ _ => .ok ⟨[]⟩) "down") ∧
      p.counters.positions = [2]) ∧
    ∃ c c', Checker.ofSettings (fun _ _ => .ok ⟨[]⟩) {} (some 3) = .ok c ∧
      Checker.ofSettings (fun _ _ => .ok ⟨[]⟩) { parallel := false } none = .ok c' ∧
      ∃ schedule result, c.runUnder twoFiles 3 schedule [⟨"a.php"⟩, ⟨"b.php"⟩] = some result ∧
        ∀ result', c'.runUnder twoFiles 8 [] [⟨"a.php"⟩, ⟨"b.php"⟩] = some result' →
          result = result' := by
  have hagrees := Checker.every_schedule_agrees (F := EntryFilter) twoFiles
    [⟨"a.php"⟩, ⟨"b.php"⟩]
  constructor
  · have hexecute : (Pool.start 2 2 .single).execute
        (inspect twoFiles (fun _ _ => .ok ⟨[]⟩) "down") [⟨"a.php"⟩, ⟨"b.php"⟩]
        [.claim 0 1, .claim 1 0, .proceed 0, .proceed 1, .proceed 1, .proceed 1, .proceed 0,
          .proceed 0] = some _ := rfl
    exact ⟨_, hexecute, (hagrees.1 _ _ _ 2 _ _ hexecute).2 rfl⟩
  · obtain ⟨⟨schedule, result, hresult⟩, hother⟩ :=
      hagrees.2.2.2 (fun _ _ => .ok ⟨[]⟩) {} 8 true (some 3) _ (by decide) rfl
    obtain ⟨c', hc', hsame⟩ := hother false none
    exact ⟨_, c', rfl, hc', schedule, result, hresult,
      fun result' hresult' => hsame _ _ _ _ hresult hresult'⟩

end MigrationLint
