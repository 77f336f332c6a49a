import MigrationLint.Check.Candidates
import MigrationLint.Proofs.Text.Utf8

/-!
# Which settings are usable

The method name is looked at character by character. In PHP a name is a sequence of bytes, and every
byte that is not ASCII may stand in it. Both come to the same, since the bytes of a character are all
ASCII or none of them is. Of several faults in settings the first one is told, and a malformed pattern
is told of in the same way when the filter of a check is made.

* `isIdentifier_iff`: the characters form an identifier iff their bytes do;
* `Glob.parseAll_eq_error_iff`: the pattern that is told of is the first one that is malformed;
* `Settings.validate_exact`: which settings are accepted, and what is told of the others.
-/

namespace MigrationLint

/-! ## Identifiers -/

/-- An identifier may start with the byte: a letter, an underscore or a byte that is not ASCII. -/
def StartsIdentifier (b : UInt8) : Prop :=
  0x61 ≤ b ∧ b ≤ 0x7a ∨ 0x41 ≤ b ∧ b ≤ 0x5a ∨ b = 0x5f ∨ 0x80 ≤ b

instance (b : UInt8) : Decidable (StartsIdentifier b) :=
  inferInstanceAs (Decidable (_ ∨ _))

/-- The byte may stand in an identifier: it may start one, or it is a digit. -/
def ContinuesIdentifier (b : UInt8) : Prop :=
  StartsIdentifier b ∨ 0x30 ≤ b ∧ b ≤ 0x39

instance (b : UInt8) : Decidable (ContinuesIdentifier b) :=
  inferInstanceAs (Decidable (_ ∨ _))

/-- The bytes form an identifier. -/
def IsIdentifier : Utf8.Bytes → Prop
  | [] => False
  | b :: bs => StartsIdentifier b ∧ ∀ b' ∈ bs, ContinuesIdentifier b'

theorem startsIdentifier_of_le {b : UInt8} (hb : 0x80 ≤ b) : StartsIdentifier b :=
  .inr (.inr (.inr hb))

theorem continuesIdentifier_of_le {b : UInt8} (hb : 0x80 ≤ b) : ContinuesIdentifier b :=
  .inl (startsIdentifier_of_le hb)

/-- A character that takes several bytes may start an identifier, -/
theorem isIdentifierStart_of_le {c : Char} (hc : 0x80 ≤ c.toNat) : isIdentifierStart c = true := by
  simp [isIdentifierStart, hc]

/-- and it may stand anywhere in one. -/
theorem isIdentifierRest_of_le {c : Char} (hc : 0x80 ≤ c.toNat) : isIdentifierRest c = true := by
  simp [isIdentifierRest, hc]

/-- An ASCII character and its byte may start the same identifiers. -/
theorem isIdentifierStart_iff_of_lt {c : Char} (hc : c.toNat < 0x80) :
    isIdentifierStart c = true ↔ StartsIdentifier (.ofNat c.toNat) := by
  have hascii : ∀ n < 0x80,
      isIdentifierStart (.ofNat n) = true ↔ StartsIdentifier (.ofNat n) := by
    decide
  simpa only [Char.ofNat_toNat] using hascii c.toNat hc

/-- An ASCII character and its byte may stand in the same identifiers. -/
theorem isIdentifierRest_iff_of_lt {c : Char} (hc : c.toNat < 0x80) :
    isIdentifierRest c = true ↔ ContinuesIdentifier (.ofNat c.toNat) := by
  have hascii : ∀ n < 0x80,
      isIdentifierRest (.ofNat n) = true ↔ ContinuesIdentifier (.ofNat n) := by
    decide
  simpa only [Char.ofNat_toNat] using hascii c.toNat hc

/-- A character may stand in an identifier iff all its bytes may. -/
theorem isIdentifierRest_iff (c : Char) :
    isIdentifierRest c = true ↔ ∀ b ∈ String.utf8EncodeChar c, ContinuesIdentifier b := by
  by_cases hc : c.toNat < 0x80
  · rw [Utf8.utf8EncodeChar_of_lt hc, List.forall_mem_singleton]
    exact isIdentifierRest_iff_of_lt hc
  · have hc := Nat.le_of_not_lt hc
    obtain ⟨b, bs, hbytes, hb, hbs⟩ := Utf8.exists_utf8EncodeChar_eq_of_le hc
    rw [hbytes, List.forall_mem_cons]
    have hrest : ∀ b' ∈ bs, ContinuesIdentifier b' := fun b' hb' =>
      continuesIdentifier_of_le (hbs b' hb')
    exact iff_of_true (isIdentifierRest_of_le hc) ⟨continuesIdentifier_of_le hb, hrest⟩

/-- Characters may stand in an identifier iff their bytes may. -/
theorem all_isIdentifierRest_iff (cs : List Char) :
    cs.all isIdentifierRest = true ↔ ∀ b ∈ Utf8.encode cs, ContinuesIdentifier b := by
  simp only [List.all_eq_true, Utf8.encode, List.forall_mem_flatMap, isIdentifierRest_iff]

/-- Characters form an identifier iff their bytes do. -/
theorem isIdentifier_iff (cs : List Char) :
    isIdentifier cs = true ↔ IsIdentifier (Utf8.encode cs) := by
  cases cs with
  | nil => exact iff_of_false Bool.false_ne_true id
  | cons c cs =>
    rw [isIdentifier, Bool.and_eq_true, all_isIdentifierRest_iff]
    have hencode : Utf8.encode (c :: cs) = String.utf8EncodeChar c ++ Utf8.encode cs :=
      List.flatMap_cons
    by_cases hc : c.toNat < 0x80
    · -- the first character is its own first byte
      rw [hencode, Utf8.utf8EncodeChar_of_lt hc, List.singleton_append, IsIdentifier,
        isIdentifierStart_iff_of_lt hc]
    · have hc := Nat.le_of_not_lt hc
      obtain ⟨b, bs, hbytes, hb, hbs⟩ := Utf8.exists_utf8EncodeChar_eq_of_le hc
      rw [hencode, hbytes, List.cons_append, IsIdentifier, List.forall_mem_append]
      -- the bytes of the first character are in order, so that the others decide
      have hfirst : ∀ b' ∈ bs, ContinuesIdentifier b' := fun b' hb' =>
        continuesIdentifier_of_le (hbs b' hb')
      refine and_congr (iff_of_true (isIdentifierStart_of_le hc) (startsIdentifier_of_le hb)) ?_
      exact (and_iff_right hfirst).symm

/-- A letter with an accent may stand in an identifier, a hyphen may not. -/
example : isIdentifier "défaire".toList = true ∧ isIdentifier "dé-faire".toList = false := by
  decide

/-! ## Patterns -/

namespace Glob

/-- The pattern is the first of several that is malformed, and the fault is its own. -/
def FirstMalformed (patterns : List String) (pattern : String) (fault : Fault) : Prop :=
  ∃ before after, patterns = before ++ pattern :: after ∧
    (∀ p ∈ before, ∃ g, parse p = .ok g) ∧ parse pattern = .error fault

/-- Where there are no patterns, none is malformed. -/
theorem not_firstMalformed_nil (pattern : String) (fault : Fault) :
    ¬FirstMalformed [] pattern fault := by
  rintro ⟨before, after, hpatterns, -⟩
  exact List.cons_ne_nil _ _ (List.append_eq_nil_iff.mp hpatterns.symm).2

/-- A malformed pattern is the first one if it comes first. -/
theorem firstMalformed_cons_of_error {p : String} {fault : Fault} (hp : parse p = .error fault)
    {patterns : List String} {pattern : String} {fault' : Fault} :
    FirstMalformed (p :: patterns) pattern fault' ↔ pattern = p ∧ fault' = fault := by
  constructor
  · rintro ⟨before, after, hpatterns, hbefore, hpattern⟩
    cases before with
    | nil =>
      obtain ⟨rfl, -⟩ := List.cons.inj hpatterns
      exact ⟨rfl, Except.error.inj (hpattern.symm.trans hp)⟩
    | cons q before =>
      -- nothing malformed may come before the first one
      obtain ⟨rfl, -⟩ := List.cons.inj hpatterns
      obtain ⟨g, hg⟩ := hbefore p List.mem_cons_self
      exact absurd (hg.symm.trans hp) (by simp)
  · rintro ⟨rfl, rfl⟩
    exact ⟨[], patterns, rfl, List.forall_mem_nil _, hp⟩

/-- A well-formed pattern does not change which one is the first that is malformed. -/
theorem firstMalformed_cons_of_ok {p : String} {g : Glob} (hp : parse p = .ok g)
    {patterns : List String} {pattern : String} {fault : Fault} :
    FirstMalformed (p :: patterns) pattern fault ↔ FirstMalformed patterns pattern fault := by
  constructor
  · rintro ⟨before, after, hpatterns, hbefore, hpattern⟩
    cases before with
    | nil =>
      obtain ⟨rfl, -⟩ := List.cons.inj hpatterns
      exact absurd (hp.symm.trans hpattern) (by simp)
    | cons q before =>
      obtain ⟨rfl, rfl⟩ := List.cons.inj hpatterns
      exact ⟨before, after, rfl, (List.forall_mem_cons.mp hbefore).2, hpattern⟩
  · rintro ⟨before, after, rfl, hbefore, hpattern⟩
    exact ⟨p :: before, after, rfl, List.forall_mem_cons.mpr ⟨⟨g, hp⟩, hbefore⟩, hpattern⟩

/-- Texts are patterns iff each of them is. -/
theorem exists_parseAll_eq_ok_iff (patterns : List String) :
    (∃ globs, parseAll patterns = .ok globs) ↔ ∀ p ∈ patterns, ∃ g, parse p = .ok g := by
  induction patterns with
  | nil => simp [parseAll]
  | cons p patterns ih =>
    rw [List.forall_mem_cons, ← ih, parseAll]
    cases parse p with
    | error fault => simp
    | ok g => cases parseAll patterns <;> simp [Except.map]

/-- What is told of texts is the fault of the first one that is no pattern. -/
theorem parseAll_eq_error_iff {patterns : List String} {f : Failure} :
    parseAll patterns = .error f ↔
      ∃ pattern fault, f = .invalidPattern pattern fault ∧
        FirstMalformed patterns pattern fault := by
  induction patterns with
  | nil => simp [parseAll, not_firstMalformed_nil]
  | cons p patterns ih =>
    rw [parseAll]
    cases hp : parse p with
    | error fault =>
      simp only [Except.error.injEq, firstMalformed_cons_of_error hp]
      constructor
      · rintro rfl
        exact ⟨p, fault, rfl, rfl, rfl⟩
      · rintro ⟨pattern, fault', rfl, rfl, rfl⟩
        rfl
    | ok g =>
      simp only [firstMalformed_cons_of_ok hp, ← ih]
      cases parseAll patterns <;> simp [Except.map]

end Glob

/-- The filter of a check tells of the first pattern that is malformed. -/
theorem EntryFilter.ofTexts_eq_invalidPattern_iff {suffix : String} {patterns : List String}
    {pattern : String} {fault : Glob.Fault} :
    ofTexts suffix patterns = .error (.invalidPattern pattern fault) ↔
      Glob.FirstMalformed patterns pattern fault := by
  have hparse : ofTexts suffix patterns = .error (.invalidPattern pattern fault) ↔
      Glob.parseAll patterns = .error (.invalidPattern pattern fault) := by
    rw [ofTexts]
    cases Glob.parseAll patterns with
    | error f => simp [bind, Except.bind]
    | ok globs =>
      -- patterns that do not compile are told of in other words
      cases hcompile : Glob.compileFault? globs <;> simp [bind, Except.bind, hcompile]
  rw [hparse, Glob.parseAll_eq_error_iff]
  constructor
  · rintro ⟨pattern', fault', heq, hfirst⟩
    obtain ⟨rfl, rfl⟩ := Failure.invalidPattern.inj heq
    exact hfirst
  · intro hfirst
    exact ⟨pattern, fault, rfl, hfirst⟩

namespace Settings

/-! ## Settings -/

/-- The method name is an identifier. -/
def UsableMethod (method : String) : Prop :=
  IsIdentifier (Utf8.encode method.toList)

/-- The suffix is not empty and has no separator. -/
def UsableSuffix (suffix : String) : Prop :=
  suffix ≠ "" ∧ '/' ∉ suffix.toList ∧ '\\' ∉ suffix.toList

/-- The first thing that is wrong with settings: with the method name, else with the suffix, else with
the patterns. -/
inductive FirstFault (s : Settings) : Failure → Prop
  | emptyMethod (hmethod : s.method = "") : FirstFault s (.settings .emptyMethod)
  | invalidMethod (hmethod : s.method ≠ "") (hname : ¬UsableMethod s.method) :
    FirstFault s (.settings (.invalidMethod s.method))
  | emptySuffix (hmethod : UsableMethod s.method) (hsuffix : s.suffix = "") :
    FirstFault s (.settings .emptySuffix)
  | separatorInSuffix (hmethod : UsableMethod s.method) (hsuffix : s.suffix ≠ "")
    (hseparator : '/' ∈ s.suffix.toList ∨ '\\' ∈ s.suffix.toList) :
    FirstFault s (.settings (.separatorInSuffix s.suffix))
  | malformedPattern {pattern : String} {fault : Glob.Fault} (hmethod : UsableMethod s.method)
    (hsuffix : UsableSuffix s.suffix) (hpattern : Glob.FirstMalformed s.exclude pattern fault) :
    FirstFault s (.invalidPattern pattern fault)

/-- Settings can be used: there can be a method with the name, files can have the suffix, and the
patterns are patterns. -/
structure Usable (s : Settings) : Prop where
  method : UsableMethod s.method
  suffix : UsableSuffix s.suffix
  exclude : ∀ p ∈ s.exclude, ∃ g, Glob.parse p = .ok g

section Faults

variable {method suffix : String}

/-- There is nothing wrong with a usable method. -/
theorem methodFault?_of_usable (h : UsableMethod method) : methodFault? method = none := by
  have hname : isIdentifier method.toList = true := (isIdentifier_iff _).mpr h
  -- there is no identifier without characters
  have hempty : method.toList.isEmpty = false := by
    cases hmethod : method.toList with
    | nil => simp [hmethod, isIdentifier] at hname
    | cons c cs => rfl
  rw [methodFault?, hempty, hname]
  rfl

/-- A method that has a name but is not usable is reported as it is written. -/
theorem methodFault?_of_not_usable (hmethod : method ≠ "") (h : ¬UsableMethod method) :
    methodFault? method = some (.invalidMethod method) := by
  have hname : ¬isIdentifier method.toList = true := fun hname => h ((isIdentifier_iff _).mp hname)
  rw [methodFault?, if_neg (by simpa using hmethod), if_neg hname]

/-- There are two separators. -/
theorem any_isSeparator_iff : suffix.toList.any isSeparator = true ↔
    '/' ∈ suffix.toList ∨ '\\' ∈ suffix.toList := by
  simp [isSeparator, List.any_eq_true, and_or_left, exists_or]

/-- There is nothing wrong with a usable suffix. -/
theorem suffixFault?_of_usable (h : UsableSuffix suffix) : suffixFault? suffix = none := by
  obtain ⟨hsuffix, hslash, hbackslash⟩ := h
  have hseparator : ¬suffix.toList.any isSeparator = true :=
    mt any_isSeparator_iff.mp (not_or.mpr ⟨hslash, hbackslash⟩)
  rw [suffixFault?, if_neg (by simpa using hsuffix), if_neg hseparator]

/-- A suffix with a separator is reported as it is written. -/
theorem suffixFault?_of_separator (hsuffix : suffix ≠ "")
    (hseparator : '/' ∈ suffix.toList ∨ '\\' ∈ suffix.toList) :
    suffixFault? suffix = some (.separatorInSuffix suffix) := by
  rw [suffixFault?, if_neg (by simpa using hsuffix), if_pos (any_isSeparator_iff.mpr hseparator)]

end Faults

variable {s : Settings}

/-- Usable settings are valid. -/
theorem validate_of_usable (h : s.Usable) : s.validate = .ok () := by
  obtain ⟨globs, hglobs⟩ := (Glob.exists_parseAll_eq_ok_iff _).mpr h.exclude
  rw [validate, methodFault?_of_usable h.method, suffixFault?_of_usable h.suffix, hglobs]
  rfl

/-- The first fault is the one that is told. -/
theorem FirstFault.validate_eq {f : Failure} (h : s.FirstFault f) : s.validate = .error f := by
  rw [validate]
  cases h with
  | emptyMethod hmethod =>
    rw [hmethod]
    rfl
  | invalidMethod hmethod hname => rw [methodFault?_of_not_usable hmethod hname]
  | emptySuffix hmethod hsuffix =>
    rw [methodFault?_of_usable hmethod, hsuffix]
    rfl
  | separatorInSuffix hmethod hsuffix hseparator =>
    rw [methodFault?_of_usable hmethod, suffixFault?_of_separator hsuffix hseparator]
  | malformedPattern hmethod hsuffix hpattern =>
    have hparse := Glob.parseAll_eq_error_iff.mpr ⟨_, _, rfl, hpattern⟩
    rw [methodFault?_of_usable hmethod, suffixFault?_of_usable hsuffix, hparse]
    rfl

/-- A suffix that cannot be used is empty or has a separator. -/
theorem separator_of_not_usable {suffix : String} (hsuffix : suffix ≠ "")
    (h : ¬UsableSuffix suffix) : '/' ∈ suffix.toList ∨ '\\' ∈ suffix.toList := by
  by_cases hslash : '/' ∈ suffix.toList
  · exact .inl hslash
  by_cases hbackslash : '\\' ∈ suffix.toList
  · exact .inr hbackslash
  · exact absurd ⟨hsuffix, hslash, hbackslash⟩ h

/-- Settings can be used, or there is a first thing that is wrong with them. -/
theorem usable_or_firstFault (s : Settings) : s.Usable ∨ ∃ f, s.FirstFault f := by
  by_cases hmethod : UsableMethod s.method
  case neg =>
    by_cases hempty : s.method = ""
    · exact .inr ⟨_, .emptyMethod hempty⟩
    · exact .inr ⟨_, .invalidMethod hempty hmethod⟩
  by_cases hsuffix : UsableSuffix s.suffix
  case neg =>
    by_cases hempty : s.suffix = ""
    · exact .inr ⟨_, .emptySuffix hmethod hempty⟩
    · exact .inr ⟨_, .separatorInSuffix hmethod hempty (separator_of_not_usable hempty hsuffix)⟩
  cases hparse : Glob.parseAll s.exclude with
  | error f =>
    obtain ⟨pattern, fault, -, hfirst⟩ := Glob.parseAll_eq_error_iff.mp hparse
    exact .inr ⟨_, .malformedPattern hmethod hsuffix hfirst⟩
  | ok globs =>
    have hexclude := (Glob.exists_parseAll_eq_ok_iff _).mp ⟨globs, hparse⟩
    exact .inl ⟨hmethod, hsuffix, hexclude⟩

/-- Settings are valid iff they are usable. -/
theorem validate_eq_ok_iff : s.validate = .ok () ↔ s.Usable := by
  refine ⟨fun hvalid => ?_, validate_of_usable⟩
  rcases s.usable_or_firstFault with h | ⟨f, hf⟩
  · exact h
  · exact absurd (hvalid.symm.trans hf.validate_eq) (by simp)

/-- Settings are refused for the first thing that is wrong with them. -/
theorem validate_eq_error_iff {f : Failure} : s.validate = .error f ↔ s.FirstFault f := by
  refine ⟨fun hfault => ?_, FirstFault.validate_eq⟩
  rcases s.usable_or_firstFault with h | ⟨f', hf'⟩
  · exact absurd ((validate_of_usable h).symm.trans hfault) (by simp)
  · obtain rfl : f' = f := Except.error.inj (hf'.validate_eq.symm.trans hfault)
    exact hf'

/-- Settings are accepted iff they can be used, and otherwise it is their first fault that is told. If
this is a malformed pattern, the filter of a check tells of the same one, whatever its suffix. -/
theorem validate_exact (s : Settings) :
    (s.validate = .ok () ↔ s.Usable) ∧ (∀ f, s.validate = .error f ↔ s.FirstFault f) ∧
    ∀ suffix pattern fault,
      EntryFilter.ofTexts suffix s.exclude = .error (.invalidPattern pattern fault) ↔
        Glob.FirstMalformed s.exclude pattern fault :=
  ⟨validate_eq_ok_iff, fun _ => validate_eq_error_iff,
    fun _ _ _ => EntryFilter.ofTexts_eq_invalidPattern_iff⟩

end Settings

end MigrationLint
