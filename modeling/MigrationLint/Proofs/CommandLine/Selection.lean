import Mathlib.Data.List.Basic
import MigrationLint.Proofs.CommandLine.Argument

/-!
# Options come apart by their names

The options of a level are written one after the other, each of them as often as it is given. Since
they have different names, what is given for one of them can be told from the rest, and so can its
value.

* `filter_givens`: what is given for a name;
* `admits_givens`: options that are written like this can be read one after the other;
* `pick?_givens`, `contains_givens`: values and switches are read back.
-/

namespace MigrationLint.CommandLine

/-! ## Options by name -/

/-- An option can be given like this. -/
structure OptionName.Allows (o : OptionName) (gs : List Given) : Prop where
  /-- It is this option that is given. -/
  name : ∀ g ∈ gs, g.name = o
  /-- Its values can be read. -/
  readable : ∀ g ∈ gs, g.IsReadable
  /-- It is given again only if it may be. -/
  once : o.isRepeatable = false → gs.length ≤ 1

namespace OptionName.Allows

variable {o : OptionName} {g : Given}

/-- An option need not be given. -/
theorem nil (o : OptionName) : o.Allows [] :=
  ⟨List.forall_mem_nil _, List.forall_mem_nil _, fun _ => Nat.zero_le _⟩

/-- Any option may be given once. -/
theorem single (hg : g.IsReadable) : g.name.Allows [g] :=
  ⟨List.forall_mem_singleton.mpr rfl, List.forall_mem_singleton.mpr hg, fun _ => Nat.le_refl _⟩

/-- An option may be given or not. -/
theorem ite (hg : g.IsReadable) (b : Bool) : g.name.Allows (if b then [g] else []) := by
  cases b with
  | true => exact single hg
  | false => exact nil _

/-- An option may be given with the value that is there, if there is one. -/
theorem option {α : Type} {f : α → Given} {x : Option α} (hname : ∀ a, (f a).name = o)
    (hread : ∀ a ∈ x, (f a).IsReadable) : o.Allows (x.map f).toList := by
  cases x with
  | none => exact nil o
  | some a => exact hname a ▸ single (hread a rfl)

/-- An option that is repeatable may be given any number of times. -/
theorem repeated {gs : List Given} (hrep : o.isRepeatable = true) (hname : ∀ g ∈ gs, g.name = o)
    (hread : ∀ g ∈ gs, g.IsReadable) : o.Allows gs :=
  ⟨hname, hread, fun h => by rw [hrep] at h; nomatch h⟩

end OptionName.Allows

/-- Every option is given as it can be. -/
def IsSelection (given : OptionName → List Given) : Prop :=
  ∀ o : OptionName, o.Allows (given o)

/-- The options of a level in order, given how each of them is given. -/
def Level.givens (l : Level) (given : OptionName → List Given) : List Given :=
  l.options.flatMap given

/-- No option is twice at a level. -/
theorem Level.nodup_options (l : Level) : l.options.Nodup := by
  cases l <;> decide

section Givens

variable {l : Level} {given : OptionName → List Given} {o : OptionName}

/-- What is given at a level is what is selected for one of its options. -/
theorem mem_givens_iff (h : IsSelection given) {g : Given} :
    g ∈ l.givens given ↔ g.name ∈ l.options ∧ g ∈ given g.name := by
  rw [Level.givens, List.mem_flatMap]
  constructor
  · rintro ⟨o, ho, hg⟩
    obtain rfl := (h o).name g hg
    exact ⟨ho, hg⟩
  · rintro ⟨ho, hg⟩
    exact ⟨g.name, ho, hg⟩

/-- Of the options of a level those with a certain name are what is given for this name. -/
theorem filter_givens (h : IsSelection given) (ho : o ∈ l.options) :
    (l.givens given).filter (fun g => g.name == o) = given o := by
  have hself : (given o).filter (fun g => g.name == o) = given o :=
    List.filter_eq_self.mpr fun g hg => beq_iff_eq.mpr ((h o).name g hg)
  have hother : ∀ names : List OptionName, o ∉ names →
      (names.flatMap given).filter (fun g => g.name == o) = [] := by
    intro names hnames
    rw [List.filter_eq_nil_iff]
    intro g hg heq
    obtain ⟨o', ho', hg'⟩ := List.mem_flatMap.mp hg
    rw [(h o').name g hg', beq_iff_eq] at heq
    exact hnames (heq ▸ ho')
  obtain ⟨before, after, hsplit⟩ := List.append_of_mem ho
  have hnodup := l.nodup_options
  rw [hsplit, List.nodup_append, List.nodup_cons] at hnodup
  rw [Level.givens, hsplit, List.flatMap_append, List.flatMap_cons, List.filter_append,
    List.filter_append, hself, hother after hnodup.2.1.1,
    hother before fun hmem => hnodup.2.2 o hmem o List.mem_cons_self rfl, List.nil_append,
    List.append_nil]

/-- The options of a level can be given one after the other. -/
theorem admits_givens (h : IsSelection given) : l.Admits (l.givens given) where
  options g hg := ((mem_givens_iff h).mp hg).1
  readable g hg := (h _).readable g ((mem_givens_iff h).mp hg).2
  apart := by
    rw [Level.givens, List.pairwise_flatMap]
    constructor
    · intro o _
      cases hrep : o.isRepeatable with
      | false =>
        match hgiven : given o, (h o).once hrep with
        | [], _ => exact .nil
        | [g], _ => exact List.pairwise_singleton _ _
      | true =>
        refine List.pairwise_of_forall_mem_list fun g _ g' hg' _ => ?_
        rw [(h o).name g' hg', hrep]
    · refine l.nodup_options.imp fun {o o'} hne g hg g' hg' heq => ?_
      rw [(h o).name g hg, (h o').name g' hg'] at heq
      exact absurd heq hne

end Givens

/-! ## Values -/

section Values

variable {α : Type} {l : Level} {given : OptionName → List Given} {o : OptionName}
  {f : Given → Option α} {k : α → Given}

/-- A value that only one option has is looked for in what is given for this option. -/
theorem filterMap_givens (h : IsSelection given) (ho : o ∈ l.options)
    (hf : ∀ g a, f g = some a ↔ g = k a) (hk : ∀ a, (k a).name = o) :
    (l.givens given).filterMap f = (given o).filterMap f := by
  rw [← filter_givens h ho, List.filterMap_filter]
  congr 1
  funext g
  by_cases hg : g.name = o
  · rw [if_pos (beq_iff_eq.mpr hg)]
  · rw [if_neg fun heq => hg (beq_iff_eq.mp heq), Option.eq_none_iff_forall_ne_some]
    intro a ha
    rw [(hf g a).mp ha] at hg
    exact hg (hk a)

/-- The value of an option that is given at most once is read back. -/
theorem pick?_givens (h : IsSelection given) (ho : o ∈ l.options)
    (hf : ∀ g a, f g = some a ↔ g = k a) (hk : ∀ a, (k a).name = o) {x : Option α}
    (hx : given o = (x.map k).toList) : pick? f (l.givens given) = x := by
  rw [pick?, filterMap_givens h ho hf hk, hx]
  cases x with
  | none => rfl
  | some a => simp [(hf _ _).mpr rfl]

/-- A switch is on iff it is given. -/
theorem contains_givens {g : Given} (h : IsSelection given) (ho : g.name ∈ l.options) {b : Bool}
    (hb : given g.name = if b then [g] else []) : (l.givens given).contains g = b := by
  rw [List.contains_eq_mem, Bool.eq_iff_iff, decide_eq_true_iff, mem_givens_iff h, hb]
  cases b <;> simp [ho]

end Values

theorem configOf_givens {l : Level} {given : OptionName → List Given} (h : IsSelection given)
    (ho : OptionName.config ∈ l.options) {x : Option Path}
    (hx : given .config = (x.map .config).toList) :
    configOf (l.givens given) = x :=
  pick?_givens (k := .config) h ho (by rintro ⟨⟩ a <;> simp) (fun _ => rfl) hx

theorem outputOf_givens {l : Level} {given : OptionName → List Given} (h : IsSelection given)
    (ho : OptionName.output ∈ l.options) {x : Option Path}
    (hx : given .output = (x.map .output).toList) :
    outputOf (l.givens given) = x :=
  pick?_givens (k := .output) h ho (by rintro ⟨⟩ a <;> simp) (fun _ => rfl) hx

end MigrationLint.CommandLine
