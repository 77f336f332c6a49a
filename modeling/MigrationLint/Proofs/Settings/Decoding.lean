import Mathlib
import MigrationLint.Proofs.Settings.Loading
import MigrationLint.Proofs.Toml.Proper

/-!
# Which documents hold which settings

A document is decoded entry by entry, in the order of its keys, and the first entry at fault ends it.
This file says what comes out without the order: a document holds settings iff nothing in it is out of
place, and then each setting is what is written for it, or its default if nothing is. Whether the
settings can be used is only looked at after that.

* `Settings.Structured`: nothing in the document is out of place;
* `Settings.Assigns`: the settings are those that are written, and defaults;
* `Settings.ofDocument_eq_ok_iff`: decoding in these terms;
* `Settings.parse_exact`: which texts hold usable settings, and what is told of the others.
-/

namespace MigrationLint.Settings

open Toml

/-! ## Values and settings -/

/-- What one of the settings can be. -/
inductive Setting
  | text (text : String)
  | list (texts : List String)
  | truth (value : Bool)
  deriving DecidableEq, Repr

/-- One of the settings. -/
def get (s : Settings) : Field → Setting
  | .method => .text s.method
  | .suffix => .text s.suffix
  | .exclude => .list s.exclude
  | .parallel => .truth s.parallel
  | .showExample => .truth s.showExample

/-- The type that the value of a setting should have. -/
def Field.wanted : Field → Wanted
  | method | suffix => .text
  | exclude => .list
  | parallel | showExample => .truth

/-- The value has the type. -/
inductive HasType : Value → Wanted → Prop
  | text (text : String) : HasType (.string text) .text
  | truth (value : Bool) : HasType (.boolean value) .truth
  | list {ofTables : Bool} {items : List (Spanned Value)}
    (hitems : ∀ x ∈ items, ∃ text, x.value = .string text) :
    HasType (.array ofTables items) .list

/-- The value holds the setting. -/
inductive Holds : Value → Setting → Prop
  | text (text : String) : Holds (.string text) (.text text)
  | truth (value : Bool) : Holds (.boolean value) (.truth value)
  | list {ofTables : Bool} {items : List (Spanned Value)} {texts : List String}
    (hitems : items.map Spanned.value = texts.map .string) :
    Holds (.array ofTables items) (.list texts)

/-- Settings are the same if all of their fields are. -/
theorem get_injective {s s' : Settings} (h : ∀ f, s.get f = s'.get f) : s = s' := by
  have hmethod := h .method
  have hsuffix := h .suffix
  have hexclude := h .exclude
  have hparallel := h .parallel
  have hexample := h .showExample
  cases s
  cases s'
  simp_all [get]

/-- A value holds one setting. -/
theorem Holds.unique {v : Value} {x x' : Setting} (h : Holds v x) (h' : Holds v x') : x = x' := by
  cases h with
  | text => cases h' with | text => rfl
  | truth => cases h' with | truth => rfl
  | list hitems =>
    cases h' with
    | list hitems' =>
      have htexts := hitems.symm.trans hitems'
      rw [List.map_inj_right fun _ _ => Value.string.inj] at htexts
      rw [htexts]

theorem Field.mem_all (f : Field) : f ∈ all := by
  cases f <;> decide

/-- No two fields have the same name. -/
theorem Field.name_injective {f g : Field} (h : f.name = g.name) : f = g := by
  have hall : ∀ f ∈ all, ∀ g ∈ all, f.name = g.name → f = g := by decide
  exact hall f f.mem_all g g.mem_all h

/-- A field is found by its name. -/
theorem Field.ofName?_eq_some_iff {name : String} {f : Field} :
    ofName? name = some f ↔ f.name = name := by
  constructor
  · intro h
    have hfound := List.find?_some h
    exact beq_iff_eq.mp hfound
  · rintro rfl
    cases f <;> rfl

/-! ## One value -/

/-- A result is mapped iff there is one. -/
theorem map_eq_ok_iff {ε α β : Type} {f : α → β} {x : Except ε α} {b : β} :
    x.map f = .ok b ↔ ∃ a, x = .ok a ∧ f a = b := by
  cases x <;> simp [Except.map]

/-- A text is decoded from a string and from nothing else. -/
theorem decodeText_eq_ok_iff {v : Spanned Value} {text : String} :
    decodeText v = .ok text ↔ v.value = .string text := by
  unfold decodeText
  split
  · next text' h => rw [h, Except.ok.injEq, Value.string.injEq]
  · next hother => exact iff_of_false nofun (hother text)

/-- A truth value is decoded from a Boolean and from nothing else. -/
theorem decodeTruth_eq_ok_iff {v : Spanned Value} {b : Bool} :
    decodeTruth v = .ok b ↔ v.value = .boolean b := by
  unfold decodeTruth
  split
  · next b' h => rw [h, Except.ok.injEq, Value.boolean.injEq]
  · next hother => exact iff_of_false nofun (hother b)

/-- Texts are decoded from items that all are strings. -/
theorem mapM_decodeText_eq_ok_iff {items : List (Spanned Value)} {texts : List String} :
    items.mapM decodeText = .ok texts ↔ items.map Spanned.value = texts.map .string := by
  induction items generalizing texts with
  | nil => simp [pure, Except.pure, eq_comm]
  | cons x items ih =>
    rw [List.mapM_cons, List.map_cons]
    cases texts with
    | nil =>
      refine iff_of_false ?_ (List.cons_ne_nil _ _)
      cases decodeText x <;> cases items.mapM decodeText <;> nofun
    | cons text texts =>
      rw [List.map_cons, List.cons.injEq, ← ih, ← decodeText_eq_ok_iff]
      cases decodeText x <;> cases items.mapM decodeText <;>
        simp [bind, Except.bind, pure, Except.pure]

/-- Values are texts if each of them is one. -/
theorem forall_exists_string_iff {items : List (Spanned Value)} :
    (∀ x ∈ items, ∃ text, x.value = .string text) ↔
      ∃ texts : List String, items.map Spanned.value = texts.map .string := by
  induction items with
  | nil => exact iff_of_true (List.forall_mem_nil _) ⟨[], rfl⟩
  | cons x items ih =>
    rw [List.forall_mem_cons, ih]
    constructor
    · rintro ⟨⟨text, htext⟩, texts, htexts⟩
      exact ⟨text :: texts, by rw [List.map_cons, List.map_cons, htext, htexts]⟩
    · rintro ⟨texts, htexts⟩
      cases texts with
      | nil => nomatch htexts
      | cons text texts =>
        obtain ⟨htext, htexts⟩ := List.cons.inj htexts
        exact ⟨⟨text, htext⟩, texts, htexts⟩

/-- Texts are decoded from an array of strings and from nothing else. -/
theorem decodeTexts_eq_ok_iff {v : Spanned Value} {texts : List String} :
    decodeTexts v = .ok texts ↔ ∃ ofTables items, v.value = .array ofTables items ∧
      items.map Spanned.value = texts.map .string := by
  unfold decodeTexts
  split
  · next ofTables items h =>
    rw [h, mapM_decodeText_eq_ok_iff]
    constructor
    · intro hitems
      exact ⟨ofTables, items, rfl, hitems⟩
    · rintro ⟨ofTables', items', heq, hitems⟩
      obtain ⟨-, rfl⟩ := Value.array.inj heq
      exact hitems
  · next hother =>
    refine iff_of_false nofun ?_
    rintro ⟨ofTables, items, h, -⟩
    exact hother ofTables items h

/-- A value of the right type can be taken for a setting. -/
theorem exists_set_eq_ok {f : Field} {v : Spanned Value} (h : HasType v.value f.wanted)
    (s : Settings) : ∃ s', s.set f v = .ok s' := by
  cases f with
  | method | suffix =>
    generalize hvalue : v.value = x at h
    cases h with
    | text text =>
      have htext := decodeText_eq_ok_iff.mpr hvalue
      exact ⟨_, map_eq_ok_iff.mpr ⟨text, htext, rfl⟩⟩
  | exclude =>
    generalize hvalue : v.value = x at h
    cases h with
    | list hitems =>
      obtain ⟨texts, htexts⟩ := forall_exists_string_iff.mp hitems
      have hlist := decodeTexts_eq_ok_iff.mpr ⟨_, _, hvalue, htexts⟩
      exact ⟨_, map_eq_ok_iff.mpr ⟨texts, hlist, rfl⟩⟩
  | parallel | showExample =>
    generalize hvalue : v.value = x at h
    cases h with
    | truth b =>
      have htruth := decodeTruth_eq_ok_iff.mpr hvalue
      exact ⟨_, map_eq_ok_iff.mpr ⟨b, htruth, rfl⟩⟩

/-- What is taken for a setting has the right type. It changes this setting and no other one. -/
theorem set_eq_ok {s s' : Settings} {f : Field} {v : Spanned Value} (h : s.set f v = .ok s') :
    HasType v.value f.wanted ∧ Holds v.value (s'.get f) ∧ ∀ g, g ≠ f → s'.get g = s.get g := by
  cases f with
  | method | suffix =>
    obtain ⟨text, htext, rfl⟩ := map_eq_ok_iff.mp h
    rw [decodeText_eq_ok_iff.mp htext]
    refine ⟨.text text, .text text, fun g hg => ?_⟩
    cases g <;> first | rfl | exact absurd rfl hg
  | exclude =>
    obtain ⟨texts, htexts, rfl⟩ := map_eq_ok_iff.mp h
    obtain ⟨ofTables, items, hvalue, hitems⟩ := decodeTexts_eq_ok_iff.mp htexts
    rw [hvalue]
    refine ⟨.list (forall_exists_string_iff.mpr ⟨texts, hitems⟩), .list hitems, fun g hg => ?_⟩
    cases g <;> first | rfl | exact absurd rfl hg
  | parallel | showExample =>
    obtain ⟨b, htruth, rfl⟩ := map_eq_ok_iff.mp h
    rw [decodeTruth_eq_ok_iff.mp htruth]
    refine ⟨.truth b, .truth b, fun g hg => ?_⟩
    cases g <;> first | rfl | exact absurd rfl hg

/-! ## The entries of a section -/

/-- One of the entries says what the setting is. -/
def Writes (entries : List (Key × Spanned Value)) (f : Field) (x : Setting) : Prop :=
  ∃ e ∈ entries, e.1.value = f.name ∧ Holds e.2.value x

/-- The entries do not mention the setting. -/
def Omits (entries : List (Key × Spanned Value)) (f : Field) : Prop :=
  ∀ e ∈ entries, e.1.value ≠ f.name

/-- Each setting is what one of the entries says, or what it is in other settings if none mentions
it. -/
def AssignsOver (other : Settings) (entries : List (Key × Spanned Value)) (s : Settings) : Prop :=
  ∀ f, Writes entries f (s.get f) ∨ Omits entries f ∧ s.get f = other.get f

/-- The keys are those of settings, and their values have the right types. -/
structure WellTyped (entries : List (Key × Spanned Value)) : Prop where
  known : ∀ e ∈ entries, ∃ f : Field, e.1.value = f.name
  typed : ∀ e ∈ entries, ∀ f : Field, e.1.value = f.name → HasType e.2.value f.wanted

/-- An entry that is accepted is for a field, has its type, and changes this field only. -/
theorem setEntry_eq_ok {s s' : Settings} {e : Key × Spanned Value} (h : s.setEntry e = .ok s') :
    ∃ f : Field, e.1.value = f.name ∧ HasType e.2.value f.wanted ∧ Holds e.2.value (s'.get f) ∧
      ∀ g, g ≠ f → s'.get g = s.get g := by
  unfold setEntry at h
  split at h
  · next f hf =>
    obtain ⟨htype, hholds, hothers⟩ := set_eq_ok h
    exact ⟨f, (Field.ofName?_eq_some_iff.mp hf).symm, htype, hholds, hothers⟩
  · nomatch h

/-- An entry for a field that has its type is accepted, whatever the settings are. -/
theorem exists_setEntry_eq_ok {f : Field} {e : Key × Spanned Value} (hkey : e.1.value = f.name)
    (htype : HasType e.2.value f.wanted) (s : Settings) : ∃ s', s.setEntry e = .ok s' := by
  unfold setEntry
  rw [Field.ofName?_eq_some_iff.mpr hkey.symm]
  show ∃ s', s.set f e.2 = .ok s'
  exact exists_set_eq_ok htype s

variable {entries : List (Key × Spanned Value)}

theorem wellTyped_nil : WellTyped [] :=
  ⟨List.forall_mem_nil _, List.forall_mem_nil _⟩

/-- Entries are well typed one by one. -/
theorem wellTyped_cons_iff {e : Key × Spanned Value} : WellTyped (e :: entries) ↔
    (∃ f : Field, e.1.value = f.name ∧ HasType e.2.value f.wanted) ∧ WellTyped entries := by
  constructor
  · rintro ⟨hknown, htyped⟩
    obtain ⟨⟨f, hf⟩, hknown⟩ := List.forall_mem_cons.mp hknown
    obtain ⟨htype, htyped⟩ := List.forall_mem_cons.mp htyped
    exact ⟨⟨f, hf, htype f hf⟩, hknown, htyped⟩
  · rintro ⟨⟨f, hf, htype⟩, hknown, htyped⟩
    refine ⟨List.forall_mem_cons.mpr ⟨⟨f, hf⟩, hknown⟩, List.forall_mem_cons.mpr ⟨?_, htyped⟩⟩
    intro g hg
    obtain rfl : f = g := Field.name_injective (hf.symm.trans hg)
    exact htype

/-- Entries that have been taken one after another are well typed, and they have decided on the
settings that they mention. -/
theorem foldlM_setEntry_eq_ok {s₀ s : Settings} (h : entries.foldlM setEntry s₀ = .ok s) :
    WellTyped entries ∧ AssignsOver s₀ entries s := by
  -- by induction on the entries; the settings before them are left open, since each entry changes them
  induction entries generalizing s₀ with
  | nil =>
    obtain rfl := Except.ok.inj h
    exact ⟨wellTyped_nil, fun f => .inr ⟨List.forall_mem_nil _, rfl⟩⟩
  | cons e entries ih =>
    rw [List.foldlM_cons] at h
    cases hentry : s₀.setEntry e with
    | error fault => simp [hentry, bind, Except.bind] at h
    | ok s₁ =>
      rw [hentry] at h
      obtain ⟨f, hf, htype, hholds, hothers⟩ := setEntry_eq_ok hentry
      obtain ⟨hrest, hassigns⟩ := ih h
      refine ⟨wellTyped_cons_iff.mpr ⟨⟨f, hf, htype⟩, hrest⟩, fun g => ?_⟩
      rcases hassigns g with ⟨e', he', hwritten⟩ | ⟨homits, hsame⟩
      · exact .inl ⟨e', List.mem_cons_of_mem e he', hwritten⟩
      -- no later entry mentions the setting, so that the first one has the last word
      by_cases hg : g = f
      · subst hg
        rw [← hsame] at hholds
        exact .inl ⟨e, List.mem_cons_self, hf, hholds⟩
      · have hkey : e.1.value ≠ g.name := fun heq =>
          hg (Field.name_injective (heq.symm.trans hf))
        exact .inr ⟨List.forall_mem_cons.mpr ⟨hkey, homits⟩, hsame.trans (hothers g hg)⟩

/-- Entries that are well typed are all accepted. -/
theorem exists_foldlM_setEntry_eq_ok (h : WellTyped entries) (s₀ : Settings) :
    ∃ s, entries.foldlM setEntry s₀ = .ok s := by
  induction entries generalizing s₀ with
  | nil => exact ⟨s₀, rfl⟩
  | cons e entries ih =>
    obtain ⟨⟨f, hf, htype⟩, hrest⟩ := wellTyped_cons_iff.mp h
    obtain ⟨s₁, hentry⟩ := exists_setEntry_eq_ok hf htype s₀
    rw [List.foldlM_cons, hentry]
    exact ih hrest s₁

/-- A field is written once, as no key is there twice. -/
theorem Writes.unique (hkeys : (keysOf entries).Nodup) {f : Field} {x x' : Setting}
    (h : Writes entries f x) (h' : Writes entries f x') : x = x' := by
  obtain ⟨e, he, hkey, hholds⟩ := h
  obtain ⟨e', he', hkey', hholds'⟩ := h'
  obtain rfl : e = e' := List.inj_on_of_nodup_map hkeys he he' (hkey.trans hkey'.symm)
  exact hholds.unique hholds'

/-- Entries that write a field do not omit it. -/
theorem Writes.not_omits {f : Field} {x : Setting} (h : Writes entries f x) :
    ¬Omits entries f := by
  obtain ⟨e, he, hkey, -⟩ := h
  exact fun homits => homits e he hkey

/-- What is written for a setting decides on it, whatever is written for the others. -/
theorem AssignsOver.get_eq (hkeys : (keysOf entries).Nodup) {entries' : List (Key × Spanned Value)}
    {s₀ s s' : Settings} (h : AssignsOver s₀ entries s) (h' : AssignsOver s₀ entries' s') {f : Field}
    (hsame : ∀ x, Writes entries f x ↔ Writes entries' f x) : s.get f = s'.get f := by
  rcases h f with hwrites | ⟨homits, hdefault⟩
  · rcases h' f with hwrites' | ⟨homits', -⟩
    · exact hwrites.unique hkeys ((hsame _).mpr hwrites')
    · exact absurd homits' ((hsame _).mp hwrites).not_omits
  · rcases h' f with hwrites' | ⟨-, hdefault'⟩
    · exact absurd homits ((hsame _).mpr hwrites').not_omits
    · exact hdefault.trans hdefault'.symm

/-- If no key is there twice, entries decide on all settings. -/
theorem AssignsOver.unique (hkeys : (keysOf entries).Nodup) {s₀ s s' : Settings}
    (h : AssignsOver s₀ entries s) (h' : AssignsOver s₀ entries s') : s = s' :=
  get_injective fun _ => h.get_eq hkeys h' fun _ => Iff.rfl

/-! ## Documents -/

/-- The entries are those of the section of settings. There are none if the document has no such
section. -/
inductive SectionOf (d : Document) : List (Key × Spanned Value) → Prop
  | absent (h : ∀ e ∈ d.entries, e.1.value ≠ sectionName) : SectionOf d []
  | present {key : Key} {span : Span} {t : Table Value} (hkey : key.value = sectionName)
    (h : (key, ⟨span, .table t⟩) ∈ d.entries) : SectionOf d t.entries

/-- Nothing in a document is out of place: it has nothing but the section of settings, which has
nothing but settings of the right types. -/
structure Structured (d : Document) (entries : List (Key × Spanned Value)) : Prop
    extends WellTyped entries where
  sections : ∀ e ∈ d.entries, e.1.value = sectionName

/-- Each setting is what one of the entries says, or its default if none mentions it. -/
def Assigns (entries : List (Key × Spanned Value)) (s : Settings) : Prop :=
  AssignsOver {} entries s

variable {d : Document}

/-- The section of a document has no key twice. -/
theorem SectionOf.nodup_keys (h : SectionOf d entries) (hd : Table.Proper d) :
    (keysOf entries).Nodup := by
  cases h with
  | absent => exact List.nodup_nil
  | present hkey hmem => exact (Value.proper_table_iff.mp (hd.values _ hmem)).keys

/-- Settings are only read from entries that are sections. -/
theorem sections_of_foldlM_ofEntry {s₀ s : Settings}
    (h : entries.foldlM (fun _ e => ofEntry e) s₀ = .ok s) :
    ∀ e ∈ entries, e.1.value = sectionName := by
  -- the settings so far are thrown away at each entry, so that any will do to start with
  induction entries generalizing s₀ with
  | nil => exact List.forall_mem_nil _
  | cons e entries ih =>
    rw [List.foldlM_cons, ofEntry] at h
    split at h
    · next hkey =>
      cases hsection : ofSection e.2 with
      | error fault => simp [hsection, bind, Except.bind] at h
      | ok s₁ =>
        rw [hsection] at h
        exact List.forall_mem_cons.mpr ⟨hkey, ih h⟩
    · nomatch h

/-- A document that holds settings has no entry but the section. -/
theorem sections_of_ofDocument_eq_ok {s : Settings} (h : ofDocument d = .ok s) :
    ∀ e ∈ d.entries, e.1.value = sectionName :=
  sections_of_foldlM_ofEntry h

/-- A document that has nothing but the section of settings is decoded by going through this section. -/
theorem ofDocument_eq (hd : Table.Proper d) (hsection : SectionOf d entries)
    (hsections : ∀ e ∈ d.entries, e.1.value = sectionName) :
    ofDocument d = entries.foldlM setEntry {} := by
  cases hsection with
  | absent habsent =>
    have hnone : d.entries = [] := List.eq_nil_iff_forall_not_mem.mpr fun e he =>
      habsent e he (hsections e he)
    rw [ofDocument, hnone]
    rfl
  | @present key span t hkey hmem =>
    have hone : d.entries = [(key, ⟨span, .table t⟩)] := by
      have hkeys := hd.keys
      cases hes : d.entries with
      | nil =>
        rw [hes] at hmem
        nomatch hmem
      | cons e es =>
        rw [hes] at hmem hsections hkeys
        cases es with
        | nil => rw [List.mem_singleton.mp hmem]
        | cons e' es =>
          -- another entry would have the same key
          have he := hsections e List.mem_cons_self
          have he' := hsections e' (List.mem_cons_of_mem e List.mem_cons_self)
          simp [keysOf, he, he'] at hkeys
    rw [ofDocument, hone, List.foldlM_cons, ofEntry, if_pos hkey]
    exact bind_pure (ofSection ⟨span, .table t⟩)

/-- A document holds settings iff nothing in it is out of place, and these settings are what is
written in it. -/
theorem ofDocument_eq_ok_iff (hd : Table.Proper d) (hsection : SectionOf d entries) {s : Settings} :
    ofDocument d = .ok s ↔ Structured d entries ∧ Assigns entries s := by
  have hkeys := hsection.nodup_keys hd
  constructor
  · intro h
    have hsections := sections_of_ofDocument_eq_ok h
    rw [ofDocument_eq hd hsection hsections] at h
    obtain ⟨htyped, hassigns⟩ := foldlM_setEntry_eq_ok h
    exact ⟨⟨htyped, hsections⟩, hassigns⟩
  · rintro ⟨hstructured, hassigns⟩
    rw [ofDocument_eq hd hsection hstructured.sections]
    obtain ⟨s', hs'⟩ := exists_foldlM_setEntry_eq_ok hstructured.toWellTyped {}
    -- there are some settings, and there is no choice in what they are
    obtain rfl := hassigns.unique hkeys (foldlM_setEntry_eq_ok hs').2
    exact hs'

/-! ## Texts -/

variable {text : String}

/-- A document with the right structure holds settings. -/
theorem exists_ofDocument_eq_ok (hd : Table.Proper d) (hsection : SectionOf d entries)
    (h : Structured d entries) : ∃ s, ofDocument d = .ok s := by
  rw [ofDocument_eq hd hsection h.sections]
  exact exists_foldlM_setEntry_eq_ok h.toWellTyped {}

/-- Once a document holds settings, all that can be told of it is that they cannot be used. -/
theorem parse_eq_error_iff (hd : Document.ofText? text = some d) {s : Settings}
    (hs : ofDocument d = .ok s) {f : Failure} :
    parse text = .error f ↔ s.validate = .error f := by
  rw [parse, hd]
  dsimp only
  rw [hs]
  dsimp only
  cases s.validate <;> simp [bind, Except.bind, pure, Except.pure]

/-- The settings that a text holds are those that its document assigns. -/
theorem assigns_of_parse (hd : Document.ofText? text = some d) (hsection : SectionOf d entries)
    {s : Settings} (hs : parse text = .ok s) : Assigns entries s := by
  have hproper := Document.proper_of_ofText? hd
  obtain ⟨d', hd', hdecoded, -⟩ := parse_eq_ok_iff.mp hs
  obtain rfl : d = d' := Option.some.inj (hd.symm.trans hd')
  exact ((ofDocument_eq_ok_iff hproper hsection).mp hdecoded).2

/-- If a document does not hold settings, this is what is told. -/
theorem parse_of_not_structured (hd : Document.ofText? text = some d)
    (hsection : SectionOf d entries) (h : ¬Structured d entries) :
    ∃ complaint, parse text = .error (.document complaint) := by
  rw [parse, hd]
  dsimp only
  cases hdecoded : ofDocument d with
  | error fault => exact ⟨_, rfl⟩
  | ok s =>
    have hproper := Document.proper_of_ofText? hd
    exact absurd ((ofDocument_eq_ok_iff hproper hsection).mp hdecoded).1 h

/-- A text that is a document, and whose section of settings is a table if it is there at all, holds
settings iff nothing in it is out of place and they can be used. The settings are those that are
written and defaults. If something is out of place this is told, whatever else is wrong. What is
written for a setting decides on it, wherever it stands and whatever stands beside it. -/
theorem parse_exact (hd : Document.ofText? text = some d) (hsection : SectionOf d entries) :
    (∀ s, parse text = .ok s ↔
      Structured d entries ∧ Assigns entries s ∧ s.validate = .ok ()) ∧
    (Structured d entries → ∃ s, Assigns entries s ∧ (∀ s', Assigns entries s' → s' = s) ∧
      ∀ f, parse text = .error f ↔ s.validate = .error f) ∧
    (¬Structured d entries → ∃ complaint, parse text = .error (.document complaint)) ∧
    ∀ text' d' entries' s s', Document.ofText? text' = some d' → SectionOf d' entries' →
      parse text = .ok s → parse text' = .ok s' → ∀ f,
        (∀ x, Writes entries f x ↔ Writes entries' f x) → s.get f = s'.get f := by
  have hproper := Document.proper_of_ofText? hd
  have hkeys := hsection.nodup_keys hproper
  refine ⟨fun s => ?accepted, fun hstructured => ?unusable, parse_of_not_structured hd hsection,
    ?independent⟩
  case accepted =>
    rw [parse_eq_ok_iff, hd]
    simp only [Option.some.injEq, exists_eq_left', ofDocument_eq_ok_iff hproper hsection, and_assoc]
  case unusable =>
    obtain ⟨s, hs⟩ := exists_ofDocument_eq_ok hproper hsection hstructured
    have hassigns := ((ofDocument_eq_ok_iff hproper hsection).mp hs).2
    exact ⟨s, hassigns, fun s' hs' => hs'.unique hkeys hassigns, fun f => parse_eq_error_iff hd hs⟩
  case independent =>
    intro text' d' entries' s s' hd' hsection' hs hs' f hsame
    have hassigns : Assigns entries s := assigns_of_parse hd hsection hs
    have hassigns' : Assigns entries' s' := assigns_of_parse hd' hsection' hs'
    exact hassigns.get_eq hkeys hassigns' hsame

/-- The entries of a section that sets the method only. -/
def methodEntries : List (Key × Spanned Value) :=
  [(⟨⟨8, 14⟩, "method"⟩, ⟨⟨17, 21⟩, .string "up"⟩)]

/-- The entries of a section with a method that no settings can have and an unknown key. -/
def strayEntries : List (Key × Spanned Value) :=
  [(⟨⟨8, 14⟩, "method"⟩, ⟨⟨17, 19⟩, .string ""⟩),
    (⟨⟨20, 25⟩, "other"⟩, ⟨⟨28, 29⟩, .integer (some 1)⟩)]

/-- The document that has only a section of settings, with given entries and a header at its start. -/
def sectionDocument (entries : List (Key × Spanned Value)) : Document :=
  ⟨.explicit, [(⟨⟨1, 6⟩, "check"⟩, ⟨⟨0, 7⟩, .table ⟨.explicit, entries⟩⟩)]⟩

/-- The section of a document that is made of entries has these entries. -/
theorem sectionOf_sectionDocument (entries : List (Key × Spanned Value)) :
    SectionOf (sectionDocument entries) entries :=
  .present (t := ⟨.explicit, entries⟩) rfl (List.mem_singleton_self _)

/-- The method is what is written and the rest are defaults. An unknown key is told even though the
method is empty. -/
theorem sectionDocument_parse_exact :
    parse "[check]\nmethod = \"up\"\n" = .ok { method := "up" } ∧
    ∃ complaint, parse "[check]\nmethod = \"\"\nother = 1\n" = .error (.document complaint) := by
  have hmethod : Document.ofText? "[check]\nmethod = \"up\"\n" =
      some (sectionDocument methodEntries) := by cbv
  have hstray : Document.ofText? "[check]\nmethod = \"\"\nother = 1\n" =
      some (sectionDocument strayEntries) := by cbv
  have hstructured : Structured (sectionDocument methodEntries) methodEntries :=
    ⟨wellTyped_cons_iff.mpr ⟨⟨.method, rfl, .text "up"⟩, wellTyped_nil⟩,
      List.forall_mem_singleton.mpr rfl⟩
  have hassigns : Assigns methodEntries { method := "up" } := by
    intro f
    cases f with
    | method => exact .inl ⟨_, List.mem_singleton_self _, rfl, .text "up"⟩
    | suffix | exclude | parallel | showExample =>
      exact .inr ⟨List.forall_mem_singleton.mpr (by decide), rfl⟩
  have hunknown : ¬Structured (sectionDocument strayEntries) strayEntries := by
    intro h
    obtain ⟨f, hf⟩ := h.known _ (List.mem_cons_of_mem _ (List.mem_singleton_self _))
    cases f <;> exact absurd hf (by decide)
  exact ⟨((parse_exact hmethod (sectionOf_sectionDocument _)).1 _).mpr ⟨hstructured, hassigns, rfl⟩,
    (parse_exact hstray (sectionOf_sectionDocument _)).2.2.1 hunknown⟩

end MigrationLint.Settings
