import Mathlib.Data.List.Flatten
import MigrationLint.Path

/-!
# The normal form of paths

Paths with the same components may be written in many ways. Their normal form is one of them: it has
one separator between components, none at its end unless it is the root, and no `.` but for one at its
start.

* `Path.Normalized`: how the segments of a path become those of its normal form;
* `Path.components_normal`: the normal form has the same components;
* `Path.IsNormal`: what the normal form looks like;
* `Path.text_normal_sublist`: the normal form only leaves characters out.
-/

namespace MigrationLint

/-! ## Segments -/

namespace Path

variable {p q : Path} {s first cs : List Char} {rest : List (List Char)}

/-- Segments with a separator before each of them. -/
def afterSlashes (rest : List (List Char)) : List Char :=
  rest.flatMap ('/' :: ·)

/-- A separator divides the segments before it from those after it. -/
theorem segments_append_slash (cs ds : List Char) :
    segments (cs ++ '/' :: ds) = segments cs ++ segments ds := by
  rw [segments, segments, segments, List.splitOn_append_cons_self]

/-- A text without separators is its only segment. -/
theorem segments_of_not_mem (h : '/' ∉ cs) : segments cs = [cs] := by
  rw [segments, List.splitOn_eq_singleton h]

/-- Segments that are written with separators between them are read back. -/
theorem segments_append_afterSlashes (hfirst : '/' ∉ first) (hrest : ∀ s ∈ rest, '/' ∉ s) :
    segments (first ++ afterSlashes rest) = first :: rest := by
  induction rest generalizing first with
  | nil => rw [afterSlashes, List.flatMap_nil, List.append_nil, segments_of_not_mem hfirst]
  | cons s rest ih =>
    obtain ⟨hs, hrest⟩ := List.forall_mem_cons.mp hrest
    have hcons : afterSlashes (s :: rest) = '/' :: (s ++ afterSlashes rest) := rfl
    rw [hcons, segments_append_slash, segments_of_not_mem hfirst, ih hs hrest,
      List.singleton_append]

/-- Every text is made of segments, and of separators between them. -/
theorem exists_segments (cs : List Char) :
    ∃ first rest, '/' ∉ first ∧ (∀ s ∈ rest, '/' ∉ s) ∧ cs = first ++ afterSlashes rest := by
  induction cs with
  | nil => exact ⟨[], [], List.not_mem_nil, nofun, rfl⟩
  | cons c cs ih =>
    obtain ⟨first, rest, hfirst, hrest, rfl⟩ := ih
    by_cases hc : c = '/'
    · -- a separator starts a new segment
      subst hc
      exact ⟨[], first :: rest, List.not_mem_nil, List.forall_mem_cons.mpr ⟨hfirst, hrest⟩, rfl⟩
    · refine ⟨c :: first, rest, ?_, hrest, rfl⟩
      rw [List.mem_cons, not_or]
      exact ⟨Ne.symm hc, hfirst⟩

/-! ## Components -/

/-- A segment counts, even if it is not the first one. -/
def isStep (s : List Char) : Bool :=
  !s.isEmpty && s != ['.']

/-- The segments that count, of those after the first one. -/
def steps (rest : List (List Char)) : List (List Char) :=
  rest.filter isStep

/-- No step is empty. -/
theorem nil_notMem_steps (rest : List (List Char)) : [] ∉ steps rest := by
  simp [steps, isStep]

/-- No step stays in place. -/
theorem current_notMem_steps (rest : List (List Char)) : ['.'] ∉ steps rest := by
  simp [steps, isStep]

/-- A step stands for one component, which is written like it. -/
theorem ofSegment_of_isStep (h : isStep s = true) :
    ∃ c : Component, Component.ofSegment s = [c] ∧ c.text.toList = s := by
  unfold Component.ofSegment
  split
  · simp [isStep] at h
  · simp [isStep] at h
  · exact ⟨_, rfl, rfl⟩
  · exact ⟨_, rfl, String.toList_ofList⟩

/-- A segment that is no step does not count. -/
theorem ofSegment_of_not_isStep (h : isStep s = false) : Component.ofSegment s = [] := by
  have hs : s ≠ [] → s = ['.'] := by simpa [isStep] using h
  by_cases hempty : s = []
  · rw [hempty]
    rfl
  · rw [hs hempty]
    rfl

/-- The components of segments are written like the steps among them. -/
theorem map_text_flatMap_ofSegment (rest : List (List Char)) :
    (rest.flatMap Component.ofSegment).map (fun c => c.text.toList) = steps rest := by
  induction rest with
  | nil => rfl
  | cons s rest ih =>
    rw [List.flatMap_cons, List.map_append, ih]
    unfold steps
    rw [List.filter_cons]
    cases hs : isStep s with
    | false => rw [ofSegment_of_not_isStep hs]; rfl
    | true =>
      obtain ⟨c, hc, htext⟩ := ofSegment_of_isStep hs
      rw [hc, List.map_singleton, htext]
      rfl

/-- Leaving out what is no step does not change the components. -/
theorem flatMap_ofSegment_steps (rest : List (List Char)) :
    (steps rest).flatMap Component.ofSegment = rest.flatMap Component.ofSegment := by
  induction rest with
  | nil => rfl
  | cons s rest ih =>
    rw [steps, List.filter_cons, List.flatMap_cons, ← ih]
    cases hs : isStep s with
    | false => rw [ofSegment_of_not_isStep hs]; rfl
    | true => rfl

/-- A first segment that is not empty stands for one component, whatever comes after it. -/
theorem leading_of_ne_nil (hfirst : first ≠ []) (rest : List (List Char)) :
    ∃ c : Component, leading first rest = [c] ∧ c.text.toList = first := by
  unfold leading
  rw [if_neg (by simpa using hfirst)]
  split
  · next hcurrent => exact ⟨.current, rfl, hcurrent.symm⟩
  · next hcurrent => exact ofSegment_of_isStep (by simp [isStep, hfirst, hcurrent])

/-! ## Writing components -/

/-- A text that ends in a name does not end in a separator. -/
theorem getLast?_append_ne_slash (cs : List Char) (hs : s ≠ []) (hslash : '/' ∉ s) :
    (cs ++ s).getLast? ≠ some '/' := by
  rw [List.getLast?_append, List.getLast?_eq_some_getLast hs, Option.some_or]
  intro hlast
  exact hslash (Option.some.inj hlast ▸ List.getLast_mem hs)

/-- A name does not start at the root. -/
theorem isAbsolute_eq_false {name : String} (hname : '/' ∉ name.toList) :
    (Path.mk name).isAbsolute = false := by
  simp only [isAbsolute, beq_eq_false_iff_ne]
  exact fun hhead => hname (List.mem_of_head? hhead)

/-- A path that is not empty and has no separator at its end grows by a separator and a name. -/
theorem text_join {name : String} (hp : p.text.toList ≠ [])
    (hlast : p.text.toList.getLast? ≠ some '/') (hname : '/' ∉ name.toList) :
    (p.join name).text.toList = p.text.toList ++ '/' :: name.toList := by
  simp [join, isAbsolute_eq_false hname, hp, hlast]

/-- The empty path and the root grow by a name alone. -/
theorem text_join_of_open {name : String}
    (hp : p.text.toList = [] ∨ p.text.toList.getLast? = some '/') (hname : '/' ∉ name.toList) :
    (p.join name).text.toList = p.text.toList ++ name.toList := by
  rcases hp with hp | hp
  · simp [join, isAbsolute_eq_false hname, hp]
  · simp [join, isAbsolute_eq_false hname, hp]

/-- The components are written in a way that they can be told apart. -/
def Separable (components : List Component) : Prop :=
  ∀ c ∈ components, c.text.toList ≠ [] ∧ '/' ∉ c.text.toList

/-- Components that are joined to a path are written behind it, each with a separator before it. -/
theorem text_foldl_join {components : List Component} (hp : p.text.toList ≠ [])
    (hlast : p.text.toList.getLast? ≠ some '/') (hcomponents : Separable components) :
    (components.foldl (fun p c => p.join c.text) p).text.toList =
      p.text.toList ++ afterSlashes (components.map fun c => c.text.toList) := by
  induction components generalizing p with
  | nil => exact (List.append_nil _).symm
  | cons c components ih =>
    obtain ⟨⟨hc, hslash⟩, hrest⟩ := List.forall_mem_cons.mp hcomponents
    have htext := text_join hp hlast hslash
    have hgrown : (p.join c.text).text.toList ≠ [] := by simp [htext]
    -- the path is still one that grows by a separator and a name
    have hend : (p.join c.text).text.toList.getLast? ≠ some '/' := by
      rw [htext, List.append_cons]
      exact getLast?_append_ne_slash _ hc hslash
    rw [List.foldl_cons, ih hgrown hend hrest, htext, List.map_cons, afterSlashes, afterSlashes,
      List.flatMap_cons, List.append_assoc]

/-- Components that do not start at the root are written with a separator between them. -/
theorem text_ofComponents_cons {c : Component} {components : List Component}
    (h : Separable (c :: components)) :
    (ofComponents (c :: components)).text.toList =
      c.text.toList ++ afterSlashes (components.map fun c => c.text.toList) := by
  obtain ⟨⟨hc, hslash⟩, hrest⟩ := List.forall_mem_cons.mp h
  have hfirst : ((⟨""⟩ : Path).join c.text).text.toList = c.text.toList :=
    text_join_of_open (.inl rfl) hslash
  have hend := getLast?_append_ne_slash [] hc hslash
  rw [List.nil_append] at hend
  rw [ofComponents, List.foldl_cons, text_foldl_join (hfirst ▸ hc) (hfirst ▸ hend) hrest, hfirst]

/-- Components below the root are written with a separator before each of them. -/
theorem text_ofComponents_root {components : List Component} (hsome : components ≠ [])
    (h : Separable components) :
    (ofComponents (.root :: components)).text.toList =
      afterSlashes (components.map fun c => c.text.toList) := by
  obtain ⟨c, components, rfl⟩ := List.exists_cons_of_ne_nil hsome
  obtain ⟨⟨hc, hslash⟩, hrest⟩ := List.forall_mem_cons.mp h
  have hroot : (⟨""⟩ : Path).join Component.root.text = ⟨"/"⟩ := rfl
  have hfirst : ((⟨"/"⟩ : Path).join c.text).text.toList = '/' :: c.text.toList :=
    text_join_of_open (.inr rfl) hslash
  have hend := getLast?_append_ne_slash ['/'] hc hslash
  rw [ofComponents, List.foldl_cons, hroot, List.foldl_cons,
    text_foldl_join (hfirst ▸ List.cons_ne_nil _ _) (hfirst ▸ hend) hrest, hfirst]
  rfl

/-! ## The normal form -/

/-- The components of a path follow from its segments. -/
theorem components_of_segments (h : segments p.text.toList = first :: rest) :
    p.components = leading first rest ++ rest.flatMap Component.ofSegment := by
  rw [components, h]

/-- The components of segments have no separators in them. -/
theorem separable_flatMap_ofSegment (hrest : ∀ s ∈ rest, '/' ∉ s) :
    Separable (rest.flatMap Component.ofSegment) := by
  intro c hc
  have hmem : c.text.toList ∈ steps rest := by
    rw [← map_text_flatMap_ofSegment]
    exact List.mem_map.mpr ⟨c, hc, rfl⟩
  refine ⟨?_, hrest _ (List.mem_filter.mp hmem).1⟩
  intro hnil
  exact nil_notMem_steps rest (hnil ▸ hmem)

/-- How the segments of a path become those of its normal form. -/
inductive Normalized (p : Path) : Prop
  | empty (h : segments p.text.toList = [[]]) (hnormal : segments p.normal.text.toList = [[]])
  | root {rest : List (List Char)} (h : segments p.text.toList = [] :: rest) (hsome : rest ≠ [])
      (hsteps : steps rest = []) (hnormal : segments p.normal.text.toList = [[], []])
  | absolute {rest : List (List Char)} (h : segments p.text.toList = [] :: rest)
      (hsteps : steps rest ≠ []) (hnormal : segments p.normal.text.toList = [] :: steps rest)
  | relative {first : List Char} {rest : List (List Char)}
      (h : segments p.text.toList = first :: rest) (hfirst : first ≠ [])
      (hnormal : segments p.normal.text.toList = first :: steps rest)

/-- Every path is normalized in one of these ways. -/
theorem normalized (p : Path) : p.Normalized := by
  obtain ⟨first, rest, hfirst, hrest, htext⟩ := exists_segments p.text.toList
  have h : segments p.text.toList = first :: rest := by
    rw [htext, segments_append_afterSlashes hfirst hrest]
  have hnormal : p.normal = ofComponents (leading first rest ++ rest.flatMap Component.ofSegment) :=
    congrArg ofComponents (components_of_segments h)
  have hseparable := separable_flatMap_ofSegment hrest
  have hslash : ∀ s ∈ steps rest, '/' ∉ s := fun s hs => hrest s (List.mem_filter.mp hs).1
  -- an empty first segment is the root, unless it is all there is
  by_cases hempty : first = []
  · subst hempty
    by_cases hnone : rest = []
    · subst hnone
      exact .empty h (by rw [hnormal]; rfl)
    · have hleading : leading [] rest = [.root] := by simp [leading, hnone]
      rw [hleading, List.singleton_append] at hnormal
      by_cases hsteps : rest.flatMap Component.ofSegment = []
      · have hnil : steps rest = [] := by rw [← map_text_flatMap_ofSegment, hsteps]; rfl
        exact .root h hnone hnil (by rw [hnormal, hsteps]; rfl)
      · have hsome : steps rest ≠ [] := by
          rw [← map_text_flatMap_ofSegment, ne_eq, List.map_eq_nil_iff]
          exact hsteps
        refine .absolute h hsome ?_
        rw [hnormal, text_ofComponents_root hsteps hseparable, map_text_flatMap_ofSegment]
        exact segments_append_afterSlashes List.not_mem_nil hslash
  · obtain ⟨c, hc, hctext⟩ := leading_of_ne_nil hempty rest
    have hall : Separable (c :: rest.flatMap Component.ofSegment) :=
      List.forall_mem_cons.mpr ⟨hctext ▸ ⟨hempty, hfirst⟩, hseparable⟩
    refine .relative h hempty ?_
    rw [hnormal, hc, List.singleton_append, text_ofComponents_cons hall, hctext,
      map_text_flatMap_ofSegment]
    exact segments_append_afterSlashes hfirst hslash

/-- The normal form has the same components. -/
@[simp]
theorem components_normal (p : Path) : p.normal.components = p.components := by
  cases p.normalized with
  | empty h hnormal => rw [components_of_segments hnormal, components_of_segments h]
  | @root rest h hsome hsteps hnormal =>
    have hleading : leading [] rest = [.root] := by simp [leading, hsome]
    rw [components_of_segments hnormal, components_of_segments h, hleading,
      ← flatMap_ofSegment_steps rest, hsteps]
    rfl
  | @absolute rest h hsteps hnormal =>
    have hsome : rest ≠ [] := by
      rintro rfl
      exact hsteps rfl
    have hleading : leading [] (steps rest) = leading [] rest := by simp [leading, hsteps, hsome]
    rw [components_of_segments hnormal, components_of_segments h, hleading, flatMap_ofSegment_steps]
  | @relative first rest h hfirst hnormal =>
    have hleading : leading first (steps rest) = leading first rest := by simp [leading, hfirst]
    rw [components_of_segments hnormal, components_of_segments h, hleading, flatMap_ofSegment_steps]

/-- The normal form is its own normal form. -/
@[simp]
theorem normal_normal (p : Path) : p.normal.normal = p.normal := by
  rw [normal, components_normal, ← normal]

/-- Paths have the same normal form iff they have the same components. -/
theorem normal_eq_normal_iff : p.normal = q.normal ↔ p.components = q.components := by
  constructor
  · intro h
    rw [← components_normal p, h, components_normal]
  · intro h
    rw [normal, normal, h]

/-! ## What the normal form looks like -/

/-- A path has no separator or `.` that does not count. -/
structure IsNormal (p : Path) : Prop where
  /-- No separator stands next to another one. -/
  single : ¬['/', '/'] <:+: p.text.toList
  /-- Only the root ends in a separator. -/
  last : p.text.toList.getLast? = some '/' → p.text = "/"
  /-- Only the first segment may be a `.`. -/
  current : ['.'] ∉ (segments p.text.toList).tail

/-- Every text has a segment. -/
theorem segments_ne_nil (cs : List Char) : segments cs ≠ [] := by
  rw [segments]
  exact List.splitOn_ne_nil '/' cs

/-- A text is put together from its segments. -/
theorem eq_of_segments_eq (h : segments cs = first :: rest) : cs = first ++ afterSlashes rest := by
  obtain ⟨first', rest', hfirst, hrest, rfl⟩ := exists_segments cs
  rw [segments_append_afterSlashes hfirst hrest] at h
  rw [(List.cons.inj h).1, (List.cons.inj h).2]

/-- Two separators next to each other have an empty segment between them. -/
theorem nil_mem_of_infix_slashes (h : ['/', '/'] <:+: cs) : [] ∈ (segments cs).tail.dropLast := by
  obtain ⟨before, after, rfl⟩ := h
  have hsegments : segments (before ++ ['/', '/'] ++ after) =
      segments before ++ [] :: segments after := by
    rw [List.append_assoc, List.cons_append, List.cons_append, List.nil_append,
      segments_append_slash, ← List.nil_append ('/' :: after), segments_append_slash]
    rfl
  rw [hsegments, List.tail_append_of_ne_nil (segments_ne_nil before),
    List.dropLast_append_of_ne_nil (List.cons_ne_nil _ _),
    List.dropLast_cons_of_ne_nil (segments_ne_nil after)]
  exact List.mem_append_right _ (.head _)

/-- Behind a separator at the end there is an empty segment. -/
theorem nil_mem_of_getLast?_slash (h : cs.getLast? = some '/') : [] ∈ (segments cs).tail := by
  obtain ⟨before, rfl⟩ := List.getLast?_eq_some_iff.mp h
  rw [segments_append_slash, List.tail_append_of_ne_nil (segments_ne_nil before)]
  exact List.mem_append_right _ (.head _)

/-- The normal form looks as it should. -/
theorem isNormal_normal (p : Path) : p.normal.IsNormal := by
  -- the root is the only normal form with an empty segment that is not the first one
  have hnil : p.normal.text = "/" ∨ [] ∉ (segments p.normal.text.toList).tail := by
    cases p.normalized with
    | empty h hnormal => exact .inr (by rw [hnormal]; exact List.not_mem_nil)
    | root h hsome hsteps hnormal => exact .inl (String.toList_inj.mp (eq_of_segments_eq hnormal))
    | absolute h hsteps hnormal | relative h hfirst hnormal =>
      right
      rw [hnormal]
      exact nil_notMem_steps _
  refine ⟨?_, ?_, ?_⟩
  · -- the root is too short for two separators
    intro hinfix
    have hmem := nil_mem_of_infix_slashes hinfix
    rcases hnil with hroot | hnil
    · rw [hroot] at hmem
      exact absurd hmem List.not_mem_nil
    · exact hnil (List.dropLast_subset _ hmem)
  · intro hlast
    exact hnil.resolve_right fun hnil => hnil (nil_mem_of_getLast?_slash hlast)
  · cases p.normalized with
    | empty h hnormal | root h hsome hsteps hnormal =>
      rw [hnormal]
      simp
    | absolute h hsteps hnormal | relative h hfirst hnormal =>
      rw [hnormal]
      exact current_notMem_steps _

/-! ## What the normal form keeps -/

theorem steps_cons (first : List Char) (rest : List (List Char)) :
    steps (first :: rest) = steps [first] ++ steps rest :=
  List.filter_append [first] rest

/-- All steps are steps. -/
theorem steps_steps (rest : List (List Char)) : steps (steps rest) = steps rest := by
  simp [steps]

/-- The segments that count are the same in the normal form, in the same order. -/
theorem steps_segments_normal (p : Path) :
    steps (segments p.normal.text.toList) = steps (segments p.text.toList) := by
  cases p.normalized with
  | empty h hnormal => rw [h, hnormal]
  | @root rest h hsome hsteps hnormal => rw [h, hnormal, steps_cons _ rest, hsteps]; rfl
  | @absolute rest h hsteps hnormal => rw [h, hnormal, steps_cons, steps_cons _ rest, steps_steps]
  | @relative first rest h hfirst hnormal =>
    rw [h, hnormal, steps_cons, steps_cons _ rest, steps_steps]

/-- A segment that counts is there as often in the normal form. -/
theorem count_segments_normal (p : Path) (hs : isStep s = true) :
    (segments p.normal.text.toList).count s = (segments p.text.toList).count s := by
  have hcount : ∀ segments : List (List Char), (steps segments).count s = segments.count s :=
    fun segments => List.count_filter hs
  rw [← hcount, steps_segments_normal, hcount]

/-- A path starts at the root if its first segment is empty and not the only one. -/
theorem isAbsolute_of_segments (h : segments p.text.toList = first :: rest) :
    p.isAbsolute = (first.isEmpty && !rest.isEmpty) := by
  have hslash : '/' ∉ first := by
    obtain ⟨first', rest', hfirst, hrest, htext⟩ := exists_segments p.text.toList
    rw [htext, segments_append_afterSlashes hfirst hrest] at h
    exact (List.cons.inj h).1 ▸ hfirst
  rw [isAbsolute, eq_of_segments_eq h]
  cases first with
  | nil =>
    cases rest with
    | nil => rfl
    | cons s rest => rfl
  | cons c first =>
    have hc : c ≠ '/' := fun heq => hslash (heq ▸ .head _)
    simp [hc]

/-- The normal form starts where the path does. -/
theorem isAbsolute_normal (p : Path) : p.normal.isAbsolute = p.isAbsolute := by
  cases p.normalized with
  | empty h hnormal => rw [isAbsolute_of_segments hnormal, isAbsolute_of_segments h]
  | root h hsome hsteps hnormal =>
    rw [isAbsolute_of_segments hnormal, isAbsolute_of_segments h]
    simp [hsome]
  | @absolute rest h hsteps hnormal =>
    have hsome : rest ≠ [] := by
      rintro rfl
      exact hsteps rfl
    rw [isAbsolute_of_segments hnormal, isAbsolute_of_segments h,
      List.isEmpty_eq_false_iff.mpr hsteps, List.isEmpty_eq_false_iff.mpr hsome]
  | relative h hfirst hnormal =>
    rw [isAbsolute_of_segments hnormal, isAbsolute_of_segments h,
      List.isEmpty_eq_false_iff.mpr hfirst]
    rfl

/-- The normal form of a path is the path with some characters left out. -/
theorem text_normal_sublist (p : Path) : p.normal.text.toList.Sublist p.text.toList := by
  have hsteps : ∀ rest, (afterSlashes (steps rest)).Sublist (afterSlashes rest) := fun rest =>
    List.filter_sublist.flatMap _
  cases p.normalized with
  | empty h hnormal =>
    rw [eq_of_segments_eq hnormal]
    exact List.nil_sublist _
  | @root rest h hsome _ hnormal =>
    -- the separator of the root is the one before the second segment
    obtain ⟨s, rest, rfl⟩ := List.exists_cons_of_ne_nil hsome
    rw [eq_of_segments_eq hnormal, eq_of_segments_eq h]
    exact (List.nil_sublist _).cons_cons '/'
  | absolute h _ hnormal | relative h _ hnormal =>
    rw [eq_of_segments_eq hnormal, eq_of_segments_eq h]
    exact (List.Sublist.refl _).append (hsteps _)

/-- The normal form of a path that is not empty is not empty. -/
theorem text_normal_ne_empty (h : p.text ≠ "") : p.normal.text ≠ "" := by
  intro hempty
  have hnil : segments p.normal.text.toList = [[]] := by rw [hempty]; rfl
  cases p.normalized with
  | empty hsegments => exact h (String.toList_inj.mp (eq_of_segments_eq hsegments))
  | root _ _ _ hnormal => rw [hnil] at hnormal; simp at hnormal
  | absolute _ hsteps hnormal =>
    rw [hnil] at hnormal
    exact hsteps (List.cons.inj hnormal).2.symm
  | relative _ hfirst hnormal =>
    rw [hnil] at hnormal
    exact hfirst (List.cons.inj hnormal).1.symm

end Path

end MigrationLint
