import MigrationLint.FileTree.Walk

/-!
# Walks, one segment at a time

A walk takes a turn at every segment of a path: it goes on from a directory, follows a link, or
stops. What holds of two walks is shown for one turn, and carries over to all of a path.

* `FileTree.turn`: what one segment does to a walk;
* `FileTree.destination_related`: walks whose turns match come to results that are related;
* `FileTree.destination_use_of_write`: a path that leads somewhere for writing leads there for use.
-/

namespace MigrationLint.FileTree

/-- What one segment of a path does to a walk. -/
inductive Turn
  /-- The walk goes on from a directory. -/
  | go (there : Location)
  /-- The walk goes on with the target of a link. -/
  | follow (here : Location) (segments : List String)
  /-- The walk stops. -/
  | stop (result : Except FileFault Destination)

/-- What a walk does about what is in a directory under a given name. -/
def Turn.ofEntry (here : Location) (name : String) (rest : List String) : Option FileEntry → Turn
  | some .directory => .go (here ++ [name])
  | some (.link target) =>
    if target = "" then .stop (.error .notFound)
    else .follow (start target here) (segmentsOf target ++ rest)
  | entry =>
    .stop <|
      if rest.isEmpty ∨ isTrailing rest then .ok ⟨here ++ [name], entry, !rest.isEmpty⟩
      else .error (if entry.isSome then .notADirectory else .notFound)

/-- What a segment does to a walk that is in a directory and has a rest of segments to go. -/
def turn (t : FileTree) (purpose : Purpose) (here : Location) (s : String) (rest : List String) :
    Turn :=
  if s = "" ∨ s = "." then .go here
  else if s = ".." then .go here.dropLast
  else if purpose = .write ∧ isTrailing rest then .stop (.error .isADirectory)
  else if maxName < s.utf8ByteSize then .stop (.error .nameTooLong)
  else .ofEntry here s rest <| t.entry? (here ++ [s])

/-- How a walk proceeds after a turn, if the rest of the segments is walked by `go`. -/
def Turn.proceed (follow : Location → List String → Except FileFault Destination)
    (go : Location → Except FileFault Destination) : Turn → Except FileFault Destination
  | .go there => go there
  | .follow here segments => follow here segments
  | .stop result => result

variable {t u : FileTree} {purpose purpose' : Purpose}

theorem walkSegments_cons (follow : Location → List String → Except FileFault Destination)
    (s : String) (rest : List String) (here : Location) :
    t.walkSegments purpose follow (s :: rest) here =
      (t.turn purpose here s rest).proceed follow (t.walkSegments purpose follow rest) := by
  rw [walkSegments, turn]
  -- both sides make the same choices, in the same order
  split
  · rfl
  split
  · rfl
  split
  · rfl
  split
  · rfl
  dsimp only
  generalize t.entry? (here ++ [s]) = entry
  cases entry with
  | none => rfl
  | some e =>
    cases e with
    | link target =>
      rw [Turn.ofEntry]
      by_cases htarget : target = ""
      · simp only [if_pos htarget, Turn.proceed]
      · simp only [if_neg htarget, Turn.proceed]
    | file | broken | directory | device => rfl

/-! ## Two walks -/

section TwoWalks

variable (R : Except FileFault Destination → Except FileFault Destination → Prop)

/-- Two walks take the same turn, stop with results that are related, or the first one stops with a
result that is related to everything. -/
inductive Turn.Matches : Turn → Turn → Prop
  | go {there : Location} : Matches (.go there) (.go there)
  | follow {here : Location} {segments : List String} :
    Matches (.follow here segments) (.follow here segments)
  | stop {x y : Except FileFault Destination} (h : R x y) : Matches (.stop x) (.stop y)
  | refuse {x : Except FileFault Destination} {turn : Turn} (h : ∀ y, R x y) :
    Matches (.stop x) turn

variable {R}

theorem Turn.Matches.refl {turn : Turn} (h : ∀ x, turn = .stop x → R x x) :
    turn.Matches R turn := by
  cases turn with
  | go there => exact .go
  | follow here segments => exact .follow
  | stop x => exact .stop (h x rfl)

/-- Two turns match if they do where the walks look at what is there: before that, they only look at
the path. -/
theorem turn_matches (herror : ∀ fault, R (.error fault) (.error fault))
    {here : Location} {s : String} {rest : List String}
    (hentry : (Turn.ofEntry here s rest (t.entry? (here ++ [s]))).Matches R
      (.ofEntry here s rest (u.entry? (here ++ [s])))) :
    (t.turn purpose here s rest).Matches R (u.turn purpose here s rest) := by
  rw [turn, turn]
  split
  · exact .go
  split
  · exact .go
  split
  · exact .stop (herror _)
  split
  · exact .stop (herror _)
  · exact hentry

variable (hdirectory : ∀ l, R (.ok ⟨l, some .directory, false⟩) (.ok ⟨l, some .directory, false⟩))
variable (hturn : ∀ here s rest,
  (t.turn purpose here s rest).Matches R (u.turn purpose' here s rest))

include hdirectory hturn

theorem walkSegments_related
    {follow follow' : Location → List String → Except FileFault Destination}
    (hfollow : ∀ here segments, R (follow here segments) (follow' here segments))
    (segments : List String) (here : Location) :
    R (t.walkSegments purpose follow segments here)
      (u.walkSegments purpose' follow' segments here) := by
  induction segments generalizing here with
  | nil => exact hdirectory here
  | cons s rest ih =>
    rw [walkSegments_cons, walkSegments_cons]
    -- only after the same turn do both walks have the rest of the segments to go
    have hmatches := hturn here s rest
    generalize t.turn purpose here s rest = a at hmatches ⊢
    generalize u.turn purpose' here s rest = b at hmatches ⊢
    cases hmatches with
    | go => exact ih _
    | follow => exact hfollow _ _
    | stop h => exact h
    | refuse h => exact h _

theorem walk_related (herror : ∀ fault, R (.error fault) (.error fault)) (links : Nat)
    (here : Location) (segments : List String) :
    R (t.walk purpose links here segments) (u.walk purpose' links here segments) := by
  -- by induction on the links that may still be followed, with all segments in each step
  induction links generalizing here segments with
  | zero =>
    exact walkSegments_related hdirectory hturn (fun _ _ => herror _) segments here
  | succ links ih => exact walkSegments_related hdirectory hturn ih segments here

/-- If the turns of two walks match, then a path leads to results that are related. -/
theorem destination_related (herror : ∀ fault, R (.error fault) (.error fault))
    (hworking : t.working = u.working) (p : Path) :
    R (t.destination purpose p) (u.destination purpose' p) := by
  rw [destination, destination, hworking]
  -- what is wrong with the text of a path is found before any walk
  split
  · exact herror _
  split
  · exact herror _
  split
  · exact herror _
  · exact walk_related hdirectory hturn herror _ _ _

end TwoWalks

/-! ## Walks for writing -/

/-- For writing, a walk takes the same turn as for use, unless it refuses to go on. -/
theorem turn_write (t : FileTree) (here : Location) (s : String) (rest : List String) :
    t.turn .write here s rest = .stop (.error .isADirectory) ∨
      t.turn .write here s rest = t.turn .use here s rest := by
  rw [turn, turn]
  split
  · exact .inr rfl
  split
  · exact .inr rfl
  -- the only choice that depends on the purpose
  split
  · exact .inl rfl
  · exact .inr rfl

theorem eq_of_ofEntry_eq_stop {here : Location} {s : String} {rest : List String}
    {entry : Option FileEntry} {d : Destination}
    (h : Turn.ofEntry here s rest entry = .stop (.ok d)) :
    d = ⟨here ++ [s], entry, !rest.isEmpty⟩ ∧ (rest.isEmpty ∨ isTrailing rest) := by
  rw [Turn.ofEntry.eq_def] at h
  split at h
  · nomatch h
  · split at h
    · nomatch h
    · nomatch h
  · split at h
    · next hlast => exact ⟨(Except.ok.inj (Turn.stop.inj h)).symm, hlast⟩
    · nomatch h

/-- A walk stops at what is there. If it is for writing, then nothing is left of the path. -/
theorem eq_of_turn_eq_stop {here : Location} {s : String} {rest : List String} {d : Destination}
    (h : t.turn purpose here s rest = .stop (.ok d)) :
    t.entry? d.location = d.entry ∧ (purpose = .write → d.separator = false) := by
  rw [turn] at h
  split at h
  · nomatch h
  split at h
  · nomatch h
  split at h
  · nomatch h
  next hrefused =>
  split at h
  · nomatch h
  -- a walk that stops has nothing left but separators, and a walk for writing not even these
  obtain ⟨rfl, hlast⟩ := eq_of_ofEntry_eq_stop h
  refine ⟨rfl, fun hwrite => ?_⟩
  rw [Bool.not_eq_false']
  exact hlast.resolve_right fun htrailing => hrefused ⟨hwrite, htrailing⟩

variable {p : Path} {d : Destination}

/-- A path that leads somewhere for writing leads there for use, and has no separator at its end. -/
theorem destination_use_of_write (h : t.destination .write p = .ok d) :
    t.destination .use p = .ok d ∧ d.separator = false := by
  let R := fun x y : Except FileFault Destination =>
    ∀ d, x = .ok d → y = .ok d ∧ d.separator = false
  have hdirectory : ∀ l, R (.ok ⟨l, some .directory, false⟩) (.ok ⟨l, some .directory, false⟩) := by
    rintro l _ ⟨rfl⟩
    exact ⟨rfl, rfl⟩
  have hturn : ∀ here s rest, (t.turn .write here s rest).Matches R (t.turn .use here s rest) := by
    intro here s rest
    obtain hrefused | hsame := turn_write t here s rest
    · rw [hrefused]
      exact .refuse fun _ _ herror => nomatch herror
    · rw [← hsame]
      refine .refl fun x hstop d hd => ⟨hd, ?_⟩
      rw [hd] at hstop
      exact (eq_of_turn_eq_stop hstop).2 rfl
  exact destination_related hdirectory hturn (fun _ _ herror => nomatch herror) rfl p d h

/-- A path leads to what is there, or to a directory. -/
theorem entry?_of_destination (h : t.destination purpose p = .ok d)
    (hfile : d.entry ≠ some .directory) : t.entry? d.location = d.entry := by
  let R := fun x _ : Except FileFault Destination =>
    ∀ d, x = .ok d → d.entry ≠ some .directory → t.entry? d.location = d.entry
  have hdirectory : ∀ l, R (.ok ⟨l, some .directory, false⟩) (.ok ⟨l, some .directory, false⟩) := by
    rintro l _ ⟨rfl⟩ hne
    exact absurd rfl hne
  have hturn : ∀ here s rest,
      (t.turn purpose here s rest).Matches R (t.turn purpose here s rest) := by
    intro here s rest
    refine .refl fun x hstop d hd _ => ?_
    rw [hd] at hstop
    exact (eq_of_turn_eq_stop hstop).1
  exact destination_related hdirectory hturn (fun _ _ herror => nomatch herror) rfl p d h hfile

end MigrationLint.FileTree
