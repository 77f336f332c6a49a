import Mathlib.Data.List.Infix
import MigrationLint.Progress.Bars

/-!
# What counters count

Copies of a bar share its counter. To which bars an advance contributes is told here by an account of
what has been done: it says which bar was copied to make which other one, and which bars were advanced,
but knows of no counters. Bars belong to the same family if copying leads back to the same bar.

* `Account.original`: the bar that copying leads back to;
* `Tallies`: the counters agree with the account, which every step preserves;
* `ProgressBars.plain_step`: drawings aside, bars are counters;
* `positions_count_families`: a bar stands at the number of advances of its family.
-/

namespace MigrationLint

/-! ## Accounts -/

/-- What is in a list with one more member is in the list, or it is that member. -/
theorem getElem?_concat_eq_some_iff {α : Type} {xs : List α} {x y : α} {i : Nat} :
    (xs ++ [x])[i]? = some y ↔ xs[i]? = some y ∨ i = xs.length ∧ x = y := by
  rw [List.getElem?_append]
  split
  · next hi => simp [Nat.ne_of_lt hi]
  · next hi =>
    rw [List.getElem?_eq_none (Nat.not_lt.mp hi), List.getElem?_singleton]
    split
    · simp; omega
    · simp; omega

/-- What has been done to bars. -/
structure Account where
  /-- For each bar the one that it is a copy of, if it is one. -/
  copied : List (Option Nat)
  /-- The bars that were advanced, each one as often as it was. -/
  advanced : List Nat
  /-- A bar comes before its copies. -/
  earlier : ∀ {i j : Nat}, copied[i]? = some (some j) → j < i
  /-- Only bars are advanced. -/
  known : ∀ j ∈ advanced, j < copied.length

namespace Account

/-- Nothing has been done, and there are no bars. -/
def empty : Account where
  copied := []
  advanced := []
  earlier h := nomatch h
  known _ h := nomatch h

/-- The account with one more bar. -/
def append (a : Account) (source : Option Nat) (hsource : ∀ j ∈ source, j < a.copied.length) :
    Account where
  copied := a.copied ++ [source]
  advanced := a.advanced
  earlier := by
    intro i j h
    rcases getElem?_concat_eq_some_iff.mp h with h | ⟨rfl, rfl⟩
    · exact a.earlier h
    · exact hsource j rfl
  known j hj := by
    rw [List.length_append]
    exact Nat.lt_add_right _ (a.known j hj)

/-- The account after a step. A step that names no bar does nothing. -/
def note (a : Account) : CounterStep → Account
  | .advance bar =>
    if h : bar < a.copied.length then
      { a with
        advanced := a.advanced ++ [bar]
        known := List.forall_mem_append.mpr ⟨a.known, List.forall_mem_singleton.mpr h⟩ }
    else a
  | .setTotal _ _ | .finish _ => a
  | .copy bar =>
    if h : bar < a.copied.length then a.append (some bar) (by simpa using h) else a
  | .add => a.append none (by simp)

/-- What several steps do, where there were no bars before. -/
def ofSteps (steps : List CounterStep) : Account :=
  steps.foldl note empty

/-- The bar that copying leads back to: the bar itself if it is not a copy. -/
def original (a : Account) (i : Nat) : Nat :=
  match h : a.copied[i]? with
  | some (some j) =>
    have : j < i := a.earlier h
    a.original j
  | _ => i
termination_by i

/-- Copying leads back from both bars to the same one. -/
def SameFamily (a : Account) (i j : Nat) : Prop :=
  a.original i = a.original j

instance (a : Account) (i j : Nat) : Decidable (a.SameFamily i j) :=
  inferInstanceAs (Decidable (_ = _))

/-- How often bars of the family of a bar were advanced. -/
def ticks (a : Account) (i : Nat) : Nat :=
  a.advanced.countP fun j => a.SameFamily i j

theorem ofSteps_append (steps more : List CounterStep) :
    ofSteps (steps ++ more) = more.foldl note (ofSteps steps) :=
  List.foldl_append

theorem original_of_copy {a : Account} {i j : Nat} (h : a.copied[i]? = some (some j)) :
    a.original i = a.original j := by
  rw [original]
  split
  · next h' =>
    rw [h] at h'
    cases h'
    rfl
  · next hne => exact absurd h (hne j)

theorem original_of_not_copy {a : Account} {i : Nat} (h : ∀ j, a.copied[i]? ≠ some (some j)) :
    a.original i = i := by
  rw [original]
  split
  · next j h' => exact absurd h' (h j)
  · rfl

/-- Copying leads back to a bar that is not a copy. -/
theorem copied_original (a : Account) {i : Nat} (hi : i < a.copied.length) :
    a.copied[a.original i]? = some none := by
  induction i using Nat.strong_induction_on with
  | h i ih =>
    obtain ⟨source, hsource⟩ : ∃ source, a.copied[i]? = some source :=
      ⟨_, List.getElem?_eq_getElem hi⟩
    cases source with
    | none => rw [original_of_not_copy (by simp [hsource]), hsource]
    | some j =>
      have hj := a.earlier hsource
      rw [original_of_copy hsource, ih j hj (Nat.lt_trans hj hi)]

/-! ### Later accounts -/

/-- A step adds to an account, and only an advance adds to what was advanced. -/
theorem exists_note_eq (a : Account) (s : CounterStep) :
    ∃ copies new, (a.note s).copied = a.copied ++ copies ∧
      (a.note s).advanced = a.advanced ++ new ∧ ∀ j ∈ new, s = .advance j := by
  cases s with
  | advance bar =>
    rw [note]
    split
    · exact ⟨[], [bar], (List.append_nil _).symm, rfl, by simp⟩
    · exact ⟨[], [], by simp⟩
  | setTotal | finish => exact ⟨[], [], by simp [note]⟩
  | copy bar =>
    rw [note]
    split
    · exact ⟨[some bar], [], rfl, (List.append_nil _).symm, by simp⟩
    · exact ⟨[], [], by simp⟩
  | add => exact ⟨[none], [], rfl, (List.append_nil _).symm, by simp⟩

theorem exists_foldl_note_eq (a : Account) (steps : List CounterStep) :
    ∃ copies new, (steps.foldl note a).copied = a.copied ++ copies ∧
      (steps.foldl note a).advanced = a.advanced ++ new ∧ ∀ j ∈ new, .advance j ∈ steps := by
  induction steps generalizing a with
  | nil => exact ⟨[], [], by simp⟩
  | cons s steps ih =>
    obtain ⟨copies, new, hcopied, hadvanced, hnew⟩ := a.exists_note_eq s
    obtain ⟨copies', new', hcopied', hadvanced', hnew'⟩ := ih (a.note s)
    rw [hcopied, List.append_assoc] at hcopied'
    rw [hadvanced, List.append_assoc] at hadvanced'
    refine ⟨_, _, hcopied', hadvanced', List.forall_mem_append.mpr ⟨?_, ?_⟩⟩ <;> intro j hj
    · rw [hnew j hj]
      exact List.mem_cons_self
    · exact List.mem_cons_of_mem _ (hnew' j hj)

/-- Where a bar comes from does not depend on the bars that are added later. -/
theorem original_eq_of_append {a a' : Account} {copies : List (Option Nat)}
    (h : a'.copied = a.copied ++ copies) {i : Nat} (hi : i < a.copied.length) :
    a'.original i = a.original i := by
  induction i using Nat.strong_induction_on with
  | h i ih =>
    have hsame : a'.copied[i]? = a.copied[i]? := by rw [h, List.getElem?_append_left hi]
    obtain ⟨source, hsource⟩ : ∃ source, a.copied[i]? = some source :=
      ⟨_, List.getElem?_eq_getElem hi⟩
    cases source with
    | none =>
      rw [original_of_not_copy (by simp [hsame, hsource]), original_of_not_copy (by simp [hsource])]
    | some j =>
      have hj := a.earlier hsource
      rw [original_of_copy hsource, original_of_copy (hsame.trans hsource),
        ih j hj (Nat.lt_trans hj hi)]

/-- Later advances are added to those that a family has had. -/
theorem ticks_eq_add {a a' : Account} {copies : List (Option Nat)} {new : List Nat}
    (hcopied : a'.copied = a.copied ++ copies) (hadvanced : a'.advanced = a.advanced ++ new) {i : Nat}
    (hi : i < a.copied.length) :
    a'.ticks i = a.ticks i + new.countP fun j => a'.SameFamily i j := by
  rw [ticks, hadvanced, List.countP_append, ticks]
  refine congrArg (· + _) (List.countP_congr fun j hj => ?_)
  rw [decide_eq_true_eq, decide_eq_true_eq, SameFamily, SameFamily,
    original_eq_of_append hcopied hi, original_eq_of_append hcopied (a.known j hj)]

end Account

/-! ## Counters that agree with an account -/

namespace Counters

/-- The counters agree with an account: copies share a family, bars that are no copies have families of
their own, and each family stands at the number of its advances. -/
structure Tallies (c : Counters) (a : Account) : Prop where
  length : c.families.length = a.copied.length
  family_lt : ∀ f ∈ c.families, f < c.counts.length
  shared : ∀ {i j : Nat}, a.copied[i]? = some (some j) → c.families[i]? = c.families[j]?
  apart : ∀ {i j : Nat}, a.copied[i]? = some none → a.copied[j]? = some none →
    c.families[i]? = c.families[j]? → i = j
  count : ∀ f n : Nat, c.counts[f]? = some n → n = a.advanced.countP fun j => c.families[j]? = some f

namespace Tallies

variable {c : Counters} {a : Account}

theorem empty : Tallies ⟨[], []⟩ .empty where
  length := rfl
  family_lt _ h := nomatch h
  shared h := nomatch h
  apart h := nomatch h
  count _ _ h := nomatch h

theorem getElem?_families_original (h : c.Tallies a) (i : Nat) :
    c.families[a.original i]? = c.families[i]? := by
  induction i using Nat.strong_induction_on with
  | h i ih =>
    by_cases hcopy : ∃ j, a.copied[i]? = some (some j)
    · obtain ⟨j, hj⟩ := hcopy
      rw [Account.original_of_copy hj, ih j (a.earlier hj), h.shared hj]
    · rw [Account.original_of_not_copy (not_exists.mp hcopy)]

/-- Two bars are of the same family iff their counters are. -/
theorem sameFamily_iff (h : c.Tallies a) {i j : Nat} (hi : i < a.copied.length)
    (hj : j < a.copied.length) : a.SameFamily i j ↔ c.families[i]? = c.families[j]? := by
  rw [Account.SameFamily, ← h.getElem?_families_original i, ← h.getElem?_families_original j]
  exact ⟨fun heq => by rw [heq], h.apart (a.copied_original hi) (a.copied_original hj)⟩

/-- A counter stands at the number of advances of its family. -/
theorem positions_eq (h : c.Tallies a) :
    c.positions = (List.range a.copied.length).map a.ticks := by
  refine List.ext_getElem (by simp [positions, h.length]) fun i hi hi' => ?_
  rw [positions, List.length_map] at hi
  have hia : i < a.copied.length := h.length ▸ hi
  have hfamily := h.family_lt _ (List.getElem_mem hi)
  have hcount := h.count _ _ (List.getElem?_eq_getElem hfamily)
  simp only [positions, List.getElem_map, List.getElem_range, List.getD_eq_getElem?_getD,
    List.getElem?_eq_getElem hfamily, Option.getD_some, Account.ticks]
  rw [hcount]
  refine List.countP_congr fun j hj => ?_
  rw [decide_eq_true_eq, decide_eq_true_eq, h.sameFamily_iff hia (a.known j hj),
    List.getElem?_eq_getElem hi]
  exact eq_comm

/-- One more bar leaves the families of the others alone. -/
theorem getElem?_append (h : c.Tallies a) {f i : Nat} (hi : i < a.copied.length) :
    (c.families ++ [f])[i]? = c.families[i]? :=
  List.getElem?_append_left (h.length ▸ hi)

/-- One more bar, whose family is that of the bar that it is a copy of, or else new. -/
theorem append (h : c.Tallies a) {f : Nat} {counts : List Nat} {source : Option Nat}
    (hsource : ∀ j ∈ source, j < a.copied.length)
    (hshared : ∀ j ∈ source, c.families[j]? = some f) (hapart : source = none → f ∉ c.families)
    (hlt : ∀ f' ∈ c.families ++ [f], f' < counts.length)
    (hcount : ∀ f' n : Nat, counts[f']? = some n →
      n = a.advanced.countP fun j => c.families[j]? = some f') :
    Tallies ⟨c.families ++ [f], counts⟩ (a.append source hsource) where
  length := by simp [Account.append, h.length]
  family_lt := hlt
  shared := by
    intro i j hij
    rcases getElem?_concat_eq_some_iff.mp hij with hij | ⟨rfl, rfl⟩
    · have hi := (List.getElem?_eq_some_iff.mp hij).1
      rw [h.getElem?_append hi, h.getElem?_append (Nat.lt_trans (a.earlier hij) hi), h.shared hij]
    · rw [h.getElem?_append (hsource j rfl), hshared j rfl, ← h.length, List.getElem?_concat_length]
  apart := by
    -- a family that is new is that of no other bar
    have hother : source = none → ∀ {i : Nat}, i < a.copied.length →
        (c.families ++ [f])[i]? ≠ (c.families ++ [f])[a.copied.length]? := by
      intro hnone i hi heq
      rw [h.getElem?_append hi, ← h.length, List.getElem?_concat_length] at heq
      exact hapart hnone (List.mem_of_getElem? heq)
    intro i j hi hj hij
    rcases getElem?_concat_eq_some_iff.mp hi with hi | ⟨rfl, hnone⟩
    · have hilt := (List.getElem?_eq_some_iff.mp hi).1
      rcases getElem?_concat_eq_some_iff.mp hj with hj | ⟨rfl, hnone⟩
      · have hjlt := (List.getElem?_eq_some_iff.mp hj).1
        rw [h.getElem?_append hilt, h.getElem?_append hjlt] at hij
        exact h.apart hi hj hij
      · exact absurd hij (hother hnone hilt)
    · rcases getElem?_concat_eq_some_iff.mp hj with hj | ⟨rfl, -⟩
      · exact absurd hij.symm (hother hnone (List.getElem?_eq_some_iff.mp hj).1)
      · rfl
  count f' n hn := by
    rw [hcount f' n hn]
    refine List.countP_congr fun j hj => ?_
    rw [h.getElem?_append (a.known j hj)]

/-- One more advance, which is counted for the family of the bar. -/
theorem advance (h : c.Tallies a) {f i : Nat} (hi : i < a.copied.length)
    (hf : c.families[i]? = some f) :
    Tallies ⟨c.families, c.counts.modify f (· + 1)⟩ (a.note (.advance i)) := by
  have hnote : a.note (.advance i) = { a with
      advanced := a.advanced ++ [i]
      known := List.forall_mem_append.mpr ⟨a.known, List.forall_mem_singleton.mpr hi⟩ } :=
    dif_pos hi
  rw [hnote]
  refine ⟨h.length, fun f' hf' => ?_, h.shared, h.apart, fun f' n hn => ?_⟩
  · rw [List.length_modify]
    exact h.family_lt f' hf'
  · rw [List.getElem?_modify] at hn
    obtain ⟨m, hm, rfl⟩ := Option.map_eq_some_iff.mp hn
    rw [List.countP_append, ← h.count f' m hm, List.countP_singleton, hf]
    -- the advance counts for its own family and for no other one
    by_cases heq : f = f'
    · simp [heq]
    · simp [heq]

/-- Whatever is done, the counters and the account go on to agree. -/
theorem step (h : c.Tallies a) (s : CounterStep) : (c.step s).Tallies (a.note s) := by
  cases s with
  | advance bar =>
    by_cases hbar : bar < a.copied.length
    · have hf := List.getElem?_eq_getElem (h.length ▸ hbar)
      rw [Counters.step, hf]
      exact h.advance hbar hf
    · have hnone := List.getElem?_eq_none (h.length ▸ Nat.not_lt.mp hbar)
      rw [Counters.step, hnone, Account.note, dif_neg hbar]
      exact h
  | setTotal | finish => exact h
  | copy bar =>
    by_cases hbar : bar < a.copied.length
    · have hf := List.getElem?_eq_getElem (h.length ▸ hbar)
      rw [Counters.step, hf, Account.note, dif_pos hbar]
      refine h.append _ (by simp) (fun hnone => absurd hnone (Option.some_ne_none _)) ?_ h.count
      refine List.forall_mem_append.mpr ⟨h.family_lt, List.forall_mem_singleton.mpr ?_⟩
      exact h.family_lt _ (List.getElem_mem _)
    · have hnone := List.getElem?_eq_none (h.length ▸ Nat.not_lt.mp hbar)
      rw [Counters.step, hnone, Account.note, dif_neg hbar]
      exact h
  | add =>
    have hfresh : c.counts.length ∉ c.families := fun hmem =>
      Nat.lt_irrefl _ (h.family_lt _ hmem)
    refine h.append (by simp) (by simp) (fun _ => hfresh) ?_ fun f n hn => ?_
    · rw [List.length_append, List.forall_mem_append, List.forall_mem_singleton]
      exact ⟨fun f hf => Nat.lt_succ_of_lt (h.family_lt f hf), Nat.lt_succ_self _⟩
    · rcases getElem?_concat_eq_some_iff.mp hn with hn | ⟨rfl, rfl⟩
      · exact h.count f n hn
      · -- no bar is of the new family yet
        refine (List.countP_eq_zero.mpr fun j _ hj => ?_).symm
        exact hfresh (List.mem_of_getElem? (of_decide_eq_true hj))

theorem foldl_step (h : c.Tallies a) (steps : List CounterStep) :
    (steps.foldl Counters.step c).Tallies (steps.foldl Account.note a) := by
  induction steps generalizing c a with
  | nil => exact h
  | cons s steps ih => exact ih (h.step s)

end Tallies

end Counters

/-! ## Bars as counters -/

/-- Only an advance of a bar is an advance of its counter. -/
theorem BarStep.advance_mem_of_mem_plain {steps : List BarStep} {j : Nat}
    (h : .advance j ∈ steps.map plain) : .advance j ∈ steps := by
  obtain ⟨s, hs, hplain⟩ := List.mem_map.mp h
  cases s with
  | advance bar =>
    obtain rfl := CounterStep.advance.inj hplain
    exact hs
  | setTotal | finish | copy | add => nomatch hplain

namespace ProgressBars

variable {d : Display}

theorem positions_plain (b : ProgressBars d) : b.plain.positions = b.positions := by
  rw [Counters.positions, plain, List.map_map]
  rfl

theorem getElem?_families_plain (b : ProgressBars d) (i : Nat) :
    b.plain.families[i]? = b.bars[i]?.map ProgressBar.counter :=
  List.getElem?_map ..

/-- To write the next count is to add one to it. -/
theorem set_succ_eq_modify (counts : List Nat) (i : Nat) :
    counts.set i (counts.getD i 0 + 1) = counts.modify i (· + 1) := by
  refine List.ext_getElem (by simp) fun j hj _ => ?_
  rw [List.length_set] at hj
  rw [List.getElem_set, List.getElem_modify]
  split
  · next heq =>
    subst heq
    rw [List.getD_eq_getElem?_getD, List.getElem?_eq_getElem hj, Option.getD_some]
  · rfl

/-- Drawings aside, bars do what counters do. -/
theorem plain_step (b : ProgressBars d) (s : BarStep) : (b.step s).plain = b.plain.step s.plain := by
  cases s with
  | advance bar =>
    rw [step, withBar, BarStep.plain, Counters.step, getElem?_families_plain]
    cases b.bars[bar]? with
    | none => rfl
    | some own =>
      show Counters.mk _ (b.counts.set own.counter (b.counts.getD own.counter 0 + 1)) = _
      rw [set_succ_eq_modify]
      rfl
  | setTotal bar _ | finish bar =>
    rw [step, withBar]
    cases b.bars[bar]? <;> rfl
  | copy bar =>
    rw [step, withBar, BarStep.plain, Counters.step, getElem?_families_plain]
    cases b.bars[bar]? with
    | none => rfl
    | some own =>
      show Counters.mk ((b.bars ++ [own]).map ProgressBar.counter) _ = _
      rw [List.map_append]
      rfl
  | add quiet isTerminal =>
    show Counters.mk ((b.bars ++ [_]).map ProgressBar.counter) _ = _
    rw [List.map_append]
    rfl

theorem plain_foldl_step (b : ProgressBars d) (steps : List BarStep) :
    (steps.foldl step b).plain = (steps.map BarStep.plain).foldl Counters.step b.plain := by
  induction steps generalizing b with
  | nil => rfl
  | cons s steps ih =>
    rw [List.foldl_cons, ih, plain_step, List.map_cons, List.foldl_cons]

/-- The history of the counters is what the bars go through, step by step. -/
theorem positions_history_plain (b : ProgressBars d) (steps : List BarStep) :
    (b.plain.history (steps.map BarStep.plain)).map Counters.positions =
      steps.inits.tail.map fun past => (past.foldl step b).positions := by
  induction steps generalizing b with
  | nil => rfl
  | cons s steps ih =>
    have hinits : steps.inits = [] :: steps.inits.tail := by
      cases steps <;> rfl
    rw [List.map_cons, Counters.history, List.map_cons, ← plain_step, positions_plain, ih,
      List.inits_cons, List.tail_cons, hinits, List.map_cons, List.map_cons, List.map_map]
    rfl

theorem tallies_run (d : Display) (steps : List BarStep) :
    (run d steps).plain.Tallies (.ofSteps (steps.map BarStep.plain)) := by
  rw [run, plain_foldl_step]
  exact Counters.Tallies.empty.foldl_step _

/-- The bars stand at the numbers of advances of their families. -/
theorem positions_run (d : Display) (steps : List BarStep) :
    let account := Account.ofSteps (steps.map BarStep.plain)
    (run d steps).positions = (List.range account.copied.length).map account.ticks := by
  rw [← positions_plain]
  exact (tallies_run d steps).positions_eq

theorem getElem?_positions_run_eq_some_iff {d : Display} {steps : List BarStep} {i p : Nat} :
    (run d steps).positions[i]? = some p ↔
      i < (Account.ofSteps (steps.map BarStep.plain)).copied.length ∧
        (Account.ofSteps (steps.map BarStep.plain)).ticks i = p := by
  rw [positions_run]
  constructor
  · intro h
    obtain ⟨hi, rfl⟩ := List.getElem?_eq_some_iff.mp h
    rw [List.length_map, List.length_range] at hi
    exact ⟨hi, by rw [List.getElem_map, List.getElem_range]⟩
  · rintro ⟨hi, rfl⟩
    rw [List.getElem?_map, List.getElem?_range hi, Option.map_some]

end ProgressBars

/-- However bars are drawn, each one stands after each step at the number of times that a bar of its
family was advanced, and the counters without drawings go through the same positions. So no bar ever
goes back, and one stays where it is while only bars of other families are advanced. -/
theorem positions_count_families (d : Display) (steps more : List BarStep) :
    let account := Account.ofSteps (steps.map BarStep.plain)
    let later := Account.ofSteps ((steps ++ more).map BarStep.plain)
    (ProgressBars.run d steps).positions =
      (List.range account.copied.length).map account.ticks ∧
    (Counters.history ⟨[], []⟩ (steps.map BarStep.plain)).map Counters.positions =
      steps.inits.tail.map (fun past => (ProgressBars.run d past).positions) ∧
    ∀ i p, (ProgressBars.run d steps).positions[i]? = some p →
      ∃ q, (ProgressBars.run d (steps ++ more)).positions[i]? = some q ∧ p ≤ q ∧
        ((∀ j, .advance j ∈ more → ¬later.SameFamily i j) → q = p) := by
  intro account later
  have hpositions := ProgressBars.positions_run d steps
  refine ⟨hpositions, (ProgressBars.empty d).positions_history_plain steps, fun i p hp => ?_⟩
  obtain ⟨hi, rfl⟩ := ProgressBars.getElem?_positions_run_eq_some_iff.mp hp
  obtain ⟨copies, new, hcopied, hadvanced, hnew⟩ :=
    account.exists_foldl_note_eq (more.map BarStep.plain)
  rw [← Account.ofSteps_append, ← List.map_append] at hcopied hadvanced
  have hticks := Account.ticks_eq_add hcopied hadvanced hi
  have hlater : i < later.copied.length := by
    rw [hcopied, List.length_append]
    exact Nat.lt_add_right _ hi
  refine ⟨later.ticks i, ProgressBars.getElem?_positions_run_eq_some_iff.mpr ⟨hlater, rfl⟩, ?_, ?_⟩
  · rw [hticks]
    exact Nat.le_add_right ..
  · intro hothers
    have hnone : new.countP (fun j => later.SameFamily i j) = 0 := by
      refine List.countP_eq_zero.mpr fun j hj => ?_
      rw [decide_eq_true_eq]
      exact hothers j (BarStep.advance_mem_of_mem_plain (hnew j hj))
    rw [hticks, hnone, Nat.add_zero]

/-- A copy of a copy counts with the first bar, and a bar of its own counts by itself. -/
example (d : Display) :
    (ProgressBars.run d [.add true false, .copy 0, .advance 0, .copy 1, .add false true, .advance 2,
      .setTotal 0 9, .advance 3, .finish 1]).positions = [2, 2, 2, 1] := by
  cbv

end MigrationLint
