import MigrationLint.Toml.Reader

/-!
# Keys stand once

A document is put together from entries and headers in the order in which they are written. Whatever
this order is, no table of the document comes to have a key twice, on no level.

* `Value.Proper`, `Table.Proper`: each key stands once in every table;
* `Table.Proper.descend?`, `Table.Proper.addSection?`: this is kept by whatever is added to a table;
* `Reader.Yields`: what is known of all that a reader can read;
* `Document.proper_of_ofText?`: documents that have been read are proper.
-/

namespace MigrationLint.Toml

/-! ## Values and tables -/

/-- The keys of entries, without where they were read. -/
def keysOf {ν : Type} (entries : List (Key × Spanned ν)) : List String :=
  entries.map fun e => e.1.value

/-- No table in the value has a key twice. -/
inductive Value.Proper : Value → Prop
  | string (text : String) : Proper (.string text)
  | integer (value : Option Int) : Proper (.integer value)
  | float (literal : FloatLiteral) : Proper (.float literal)
  | boolean (value : Bool) : Proper (.boolean value)
  | dateTime : Proper .dateTime
  | array {ofTables : Bool} {items : List (Spanned Value)}
    (hitems : ∀ x ∈ items, Proper x.value) : Proper (.array ofTables items)
  | table {table : Table Value} (hkeys : (keysOf table.entries).Nodup)
    (hvalues : ∀ e ∈ table.entries, Proper e.2.value) : Proper (.table table)

/-- Neither the table nor a table in it has a key twice. -/
structure Table.Proper (t : Table Value) : Prop where
  keys : (keysOf t.entries).Nodup
  values : ∀ e ∈ t.entries, e.2.value.Proper

/-- The value of the entry has no table with a key twice. -/
def Entry.Proper (e : Entry) : Prop :=
  e.value.value.Proper

/-- The values of the entries below the header have no table with a key twice. -/
def Section.Proper (s : Section) : Prop :=
  ∀ e ∈ s.entries, e.Proper

/-- A table is proper as a value iff it is proper as a table. -/
theorem Value.proper_table_iff {t : Table Value} : (Value.table t).Proper ↔ t.Proper := by
  constructor
  · rintro (_ | _ | _ | _ | _ | _ | ⟨hkeys, hvalues⟩)
    exact ⟨hkeys, hvalues⟩
  · exact fun h => .table h.keys h.values

/-- An array is proper iff its items are. -/
theorem Value.proper_array_iff {ofTables : Bool} {items : List (Spanned Value)} :
    (Value.array ofTables items).Proper ↔ ∀ x ∈ items, x.value.Proper := by
  constructor
  · rintro (_ | _ | _ | _ | _ | hitems)
    exact hitems
  · exact .array

namespace Table

variable {t t' : Table Value}

/-- A table without entries has no key twice. -/
theorem proper_nil (form : Form) : (⟨form, []⟩ : Table Value).Proper :=
  ⟨List.nodup_nil, List.forall_mem_nil _⟩

/-- Inserting an entry at the place of its key adds it, wherever that is. -/
theorem insertEntry_perm {ν : Type} (key : Key) (value : Spanned ν)
    (entries : List (Key × Spanned ν)) :
    (insertEntry key value entries).Perm ((key, value) :: entries) := by
  induction entries with
  | nil => exact List.Perm.refl _
  | cons e es ih =>
    rw [insertEntry]
    split
    · exact (ih.cons e).trans (List.Perm.swap _ _ es)
    · exact List.Perm.refl _

/-- An entry that is put into a table takes the place of the one that its key may have had. -/
theorem Proper.put (h : t.Proper) (key : Key) {value : Spanned Value}
    (hvalue : value.value.Proper) : (t.put key value).Proper := by
  have hperm := insertEntry_perm key value (without key.value t.entries)
  have hsublist : (without key.value t.entries).Sublist t.entries := List.filter_sublist
  constructor
  · have hnew : key.value ∉ keysOf (without key.value t.entries) := by
      intro hmem
      obtain ⟨e, he, heq⟩ := List.mem_map.mp hmem
      have hne := (List.mem_filter.mp he).2
      simp [heq] at hne
    have hkeys : (keysOf ((key, value) :: without key.value t.entries)).Nodup :=
      List.nodup_cons.mpr ⟨hnew, h.keys.sublist (hsublist.map _)⟩
    exact (hperm.map fun e : Key × Spanned Value => e.1.value).nodup_iff.mpr hkeys
  · intro e he
    rcases List.mem_cons.mp (hperm.mem_iff.mp he) with rfl | hold
    · exact hvalue
    · exact h.values e (hsublist.subset hold)

/-- A value that takes the place of another one leaves the keys as they are. -/
theorem Proper.update (h : t.Proper) (key : String) {value : Value} (hvalue : value.Proper) :
    (t.update key value).Proper := by
  constructor
  · have hkeys : keysOf (t.update key value).entries = keysOf t.entries := by
      rw [keysOf, Table.update, List.map_map]
      apply List.map_congr_left
      intro e _
      rw [Function.comp_apply]
      split <;> rfl
    rw [hkeys]
    exact h.keys
  · intro e he
    obtain ⟨e', he', rfl⟩ := List.mem_map.mp he
    split
    · exact hvalue
    · exact h.values e' he'

/-- What a proper table has under a key is proper. -/
theorem Proper.value_of_get? (h : t.Proper) {key : String} {value : Spanned Value}
    (hget : t.get? key = some value) : value.value.Proper := by
  obtain ⟨e, he, rfl⟩ := Option.map_eq_some_iff.mp hget
  exact h.values e (List.mem_of_find?_eq_some he)

/-- If only the last item of an array changes, and stays proper, all items do. -/
theorem proper_of_updateLast? {f : Value → Option Value}
    (hf : ∀ v v', v.Proper → f v = some v' → v'.Proper) {items items' : List (Spanned Value)}
    (hitems : ∀ x ∈ items, x.value.Proper) (h : updateLast? f items = some items') :
    ∀ x ∈ items', x.value.Proper := by
  induction items generalizing items' with
  | nil => nomatch h
  | cons x xs ih =>
    obtain ⟨hx, hxs⟩ := List.forall_mem_cons.mp hitems
    cases xs with
    | nil =>
      obtain ⟨v, hv, rfl⟩ := Option.map_eq_some_iff.mp h
      exact List.forall_mem_singleton.mpr (hf x.value v hx hv)
    | cons y ys =>
      obtain ⟨rest, hrest, rfl⟩ := Option.map_eq_some_iff.mp h
      exact List.forall_mem_cons.mpr ⟨hx, ih hxs hrest⟩

/-- A step along a path makes a table that is missing, or it goes on in the table that stands there or in
the last one of an array of tables. -/
theorem descend?_cons_eq_some {implied : Form} {f : Table Value → Option (Table Value)} {key : Key}
    {keys : List Key} (h : t.descend? implied f (key :: keys) = some t') :
    (∃ u, descend? implied f keys ⟨implied, []⟩ = some u ∧ t' = t.put key ⟨key.span, .table u⟩) ∨
    (∃ span u u', t.get? key.value = some ⟨span, .table u⟩ ∧ u.descend? implied f keys = some u' ∧
      t' = t.update key.value (.table u')) ∨
    ∃ span items items' into, t.get? key.value = some ⟨span, .array true items⟩ ∧
      updateLast? into items = some items' ∧ t' = t.update key.value (.array true items') ∧
      ∀ v v', into v = some v' →
        ∃ u u', v = .table u ∧ u.descend? implied f keys = some u' ∧ v' = .table u' := by
  rw [descend?] at h
  cases hget : t.get? key.value with
  | none =>
    simp only [hget, bind, Option.bind_eq_some_iff] at h
    obtain ⟨u, hu, heq⟩ := h
    exact .inl ⟨u, hu, (Option.some.inj heq).symm⟩
  | some x =>
    obtain ⟨span, v⟩ := x
    cases v with
    | table u =>
      rw [hget] at h
      dsimp only at h
      split at h
      · nomatch h
      · simp only [bind, Option.bind_eq_some_iff] at h
        obtain ⟨u', hu, heq⟩ := h
        exact .inr (.inl ⟨span, u, u', rfl, hu, (Option.some.inj heq).symm⟩)
    | array ofTables items =>
      rw [hget] at h
      cases ofTables with
      | false => nomatch h
      | true =>
        simp only [bind, Option.bind_eq_some_iff] at h
        obtain ⟨items', hitems, heq⟩ := h
        refine .inr (.inr ⟨span, items, items', _, rfl, hitems, (Option.some.inj heq).symm, ?_⟩)
        intro v v' hinto
        -- only a table can be changed
        cases v with
        | table u =>
          obtain ⟨u', hu, rfl⟩ := Option.map_eq_some_iff.mp hinto
          exact ⟨u, u', rfl, hu, rfl⟩
        | string | integer | float | boolean | dateTime | array => nomatch hinto
    | string | integer | float | boolean | dateTime =>
      rw [hget] at h
      nomatch h

/-- A change at the end of a path leaves a table proper if it leaves the table there proper. -/
theorem Proper.descend? {implied : Form} {f : Table Value → Option (Table Value)}
    (hf : ∀ u u' : Table Value, u.Proper → f u = some u' → u'.Proper) {keys : List Key}
    (ht : t.Proper) (h : t.descend? implied f keys = some t') : t'.Proper := by
  -- by induction on the path; where it starts is left open, since every step leads to another table
  induction keys generalizing t t' with
  | nil => exact hf t t' ht h
  | cons key keys ih =>
    rcases descend?_cons_eq_some h with ⟨u, hu, rfl⟩ | ⟨span, u, u', hget, hu, rfl⟩ |
      ⟨span, items, items', into, hget, hitems, rfl, hinto⟩
    · -- the table that is missing is made out of nothing
      have hu' : u.Proper := ih (proper_nil implied) hu
      exact ht.put key (Value.proper_table_iff.mpr hu')
    · have hu' : u'.Proper := ih (Value.proper_table_iff.mp (ht.value_of_get? hget)) hu
      exact ht.update key.value (Value.proper_table_iff.mpr hu')
    · have hlast : ∀ v v', v.Proper → into v = some v' → v'.Proper := by
        intro v v' hv hv'
        obtain ⟨u, u', rfl, hu, rfl⟩ := hinto v v' hv'
        exact Value.proper_table_iff.mpr (ih (Value.proper_table_iff.mp hv) hu)
      have hitems' : ∀ x ∈ items', x.value.Proper :=
        proper_of_updateLast? hlast (Value.proper_array_iff.mp (ht.value_of_get? hget)) hitems
      exact ht.update key.value (Value.proper_array_iff.mpr hitems')

/-- An entry goes into a table along its key, and keeps it proper. -/
theorem Proper.add? (ht : t.Proper) {e : Entry} (he : e.Proper)
    (h : t.add? e = some t') : t'.Proper := by
  refine ht.descend? (fun u u' hu hadd => ?_) h
  split at hadd
  · nomatch hadd
  · split at hadd
    · obtain rfl := Option.some.inj hadd
      exact hu.put e.path.last he
    · nomatch hadd

/-- Entries go into a table one after the other. -/
theorem Proper.addAll? (ht : t.Proper) {es : List Entry} (hes : ∀ e ∈ es, e.Proper)
    (h : t.addAll? es = some t') : t'.Proper := by
  induction es generalizing t with
  | nil =>
    obtain rfl := Option.some.inj h
    exact ht
  | cons e es ih =>
    obtain ⟨he, hes⟩ := List.forall_mem_cons.mp hes
    rw [Table.addAll?, List.foldlM_cons] at h
    obtain ⟨u, hu, hrest⟩ := Option.bind_eq_some_iff.mp h
    exact ih (ht.add? he hu) hes hrest

/-- A header makes a table, or goes on in one that is implied, and its entries go into it. -/
theorem Proper.addTable? (ht : t.Proper) {s : Section}
    (hs : s.Proper) (h : addTable? s t = some t') : t'.Proper := by
  have hfilled : ∀ known, (⟨.explicit, known⟩ : Table Value).Proper →
      ((⟨.explicit, known⟩ : Table Value).addAll? s.entries).bind (fun u =>
        some (t.put s.header.path.last ⟨s.header.span, .table u⟩)) = some t' → t'.Proper := by
    intro known hknown hput
    obtain ⟨u, hu, heq⟩ := Option.bind_eq_some_iff.mp hput
    obtain rfl := Option.some.inj heq
    exact ht.put _ (Value.proper_table_iff.mpr (hknown.addAll? hs hu))
  rw [Table.addTable?] at h
  -- the table is new, or it has been implied and has entries already
  split at h
  · exact hfilled [] (proper_nil .explicit) h
  · next hget =>
    have hu := Value.proper_table_iff.mp (ht.value_of_get? hget)
    split at h
    · exact hfilled _ ⟨hu.keys, hu.values⟩ h
    · nomatch h
  · nomatch h

/-- A header of an array of tables adds a table with its entries. -/
theorem Proper.addToArray? (ht : t.Proper) {s : Section}
    (hs : s.Proper) (h : addToArray? s t = some t') : t'.Proper := by
  simp only [Table.addToArray?, bind, Option.bind_eq_some_iff] at h
  obtain ⟨u, hu, h⟩ := h
  have hitem : ∀ x ∈ [(⟨s.header.span, .table u⟩ : Spanned Value)], x.value.Proper :=
    List.forall_mem_singleton.mpr
      (Value.proper_table_iff.mpr ((proper_nil .explicit).addAll? hs hu))
  cases hget : t.get? s.header.path.last.value with
  | none =>
    rw [hget] at h
    obtain rfl := Option.some.inj h
    exact ht.put _ (Value.proper_array_iff.mpr hitem)
  | some x =>
    have hx := ht.value_of_get? hget
    rw [hget] at h
    split at h
    · next hnone => nomatch hnone
    · next hsome =>
      obtain rfl := Option.some.inj hsome
      obtain rfl := Option.some.inj h
      have hitems := List.forall_mem_append.mpr
        ⟨Value.proper_array_iff.mp hx, hitem⟩
      exact ht.update _ (Value.proper_array_iff.mpr hitems)
    · nomatch h

/-- A header and the entries below it leave a table proper. -/
theorem Proper.addSection? (ht : t.Proper) {s : Section}
    (hs : s.Proper) (h : t.addSection? s = some t') : t'.Proper := by
  refine ht.descend? (fun u u' hu hadd => ?_) h
  split at hadd
  · exact hu.addToArray? hs hadd
  · exact hu.addTable? hs hadd

end Table

/-- A document that is put together from proper entries and sections is proper. -/
theorem Document.proper_of_ofSections? {entries : List Entry} {sections : List Section}
    (hentries : ∀ e ∈ entries, e.Proper)
    (hsections : ∀ s ∈ sections, s.Proper) {d : Document}
    (h : ofSections? entries sections = some d) : Table.Proper d := by
  obtain ⟨t, ht, hd⟩ := Option.bind_eq_some_iff.mp h
  have hproper := (Table.proper_nil .explicit).addAll? hentries ht
  clear h ht
  induction sections generalizing t with
  | nil =>
    obtain rfl := Option.some.inj hd
    exact hproper
  | cons s sections ih =>
    obtain ⟨hs, hsections⟩ := List.forall_mem_cons.mp hsections
    rw [List.foldlM_cons] at hd
    obtain ⟨u, hu, hrest⟩ := Option.bind_eq_some_iff.mp hd
    exact ih hsections u hrest (hproper.addSection? hs hu)

/-! ## Values that are not made up of others -/

section Simple

variable {cs rest : Rest} {v : Value} {hasSign negative leadingZero : Bool}

/-- A number in a base of its own has no tables in it. -/
theorem proper_of_based? {base : Nat} (h : based? base cs = some v) : v.Proper := by
  simp only [based?, bind, Option.bind_eq_some_iff] at h
  obtain ⟨digits, -, h⟩ := h
  split at h
  · obtain rfl := Option.some.inj h
    exact .integer _
  · obtain ⟨n, -, h⟩ := Option.bind_eq_some_iff.mp h
    obtain rfl := Option.some.inj h
    exact .integer _

/-- A float has no tables in it. -/
theorem proper_of_float? (h : float? negative leadingZero cs = some v) : v.Proper := by
  simp only [float?, bind, Option.bind_eq_some_iff] at h
  obtain ⟨whole, -, h⟩ := h
  split at h
  · nomatch h
  · simp only [Option.bind_eq_some_iff] at h
    obtain ⟨places, -, exponent, -, h⟩ := h
    obtain rfl := Option.some.inj h
    exact .float _

/-- A decimal number has no tables in it, whether it is an integer or a float. -/
theorem proper_of_decimal? (h : decimal? hasSign negative cs = some v) : v.Proper := by
  simp only [decimal?, bind] at h
  -- a point or an exponent makes the difference between the two kinds of numbers
  split at h
  · obtain ⟨digits, -, h⟩ := Option.bind_eq_some_iff.mp h
    exact proper_of_float? h
  · split at h
    · nomatch h
    · split at h
      · obtain ⟨digits, -, h⟩ := Option.bind_eq_some_iff.mp h
        obtain rfl := Option.some.inj h
        exact .integer _
      · nomatch h

/-- A number has no tables in it, in whatever base it is written. -/
theorem proper_of_unsigned? (h : unsigned? hasSign negative cs = some v) : v.Proper := by
  unfold unsigned? at h
  split at h
  · obtain rfl := Option.some.inj h
    exact .float _
  · obtain rfl := Option.some.inj h
    exact .float _
  · exact proper_of_decimal? h

/-- A value that is written as a word has no tables in it. -/
theorem proper_of_word? (h : word? cs = some v) : v.Proper := by
  unfold word? at h
  split at h
  · obtain rfl := Option.some.inj h
    exact .boolean _
  · obtain rfl := Option.some.inj h
    exact .boolean _
  · exact proper_of_based? h
  · exact proper_of_based? h
  · exact proper_of_based? h
  · exact proper_of_unsigned? h
  · exact proper_of_unsigned? h
  · exact proper_of_unsigned? h

/-- A value that is written without quotes and brackets has no tables in it. -/
theorem proper_of_bareValue? (h : bareValue? cs = some (v, rest)) : v.Proper := by
  unfold bareValue? at h
  dsimp only at h
  split at h
  · obtain ⟨rest', -, heq⟩ := Option.map_eq_some_iff.mp h
    obtain ⟨rfl, -⟩ := Prod.mk.inj heq
    exact .dateTime
  · obtain ⟨v', hword, heq⟩ := Option.map_eq_some_iff.mp h
    obtain ⟨rfl, -⟩ := Prod.mk.inj heq
    exact proper_of_word? hword

end Simple

namespace Reader

/-! ## Readers -/

/-- Whatever the reader reads has the property. -/
def Yields {α : Type} (r : Reader α) (P : α → Prop) : Prop :=
  ∀ i a i', r i = some (a, i') → P a

variable {α β : Type} {P : α → Prop} {Q : β → Prop}

/-- What is read after something else may depend on it, and on what is known of it. -/
theorem Yields.bind {r : Reader α} {next : α → Reader β} (hr : Yields r P)
    (hnext : ∀ a, P a → Yields (next a) Q) : Yields (r >>= next) Q := by
  intro i b i' h
  obtain ⟨⟨a, j⟩, ha, hb⟩ := Option.bind_eq_some_iff.mp h
  exact hnext a (hr i a j ha) j b i' hb

/-- Nothing need be known of what is read. -/
theorem yields_true (r : Reader α) : Yields r fun _ => True :=
  fun _ _ _ _ => trivial

/-- What is read first does not matter if what follows has the property anyway. -/
theorem yields_bind {r : Reader α} {next : α → Reader β} (h : ∀ a, Yields (next a) Q) :
    Yields (r >>= next) Q :=
  (yields_true r).bind fun a _ => h a

/-- A value that is read without looking has the property if it has it anyway. -/
theorem yields_pure {a : α} (h : P a) : Yields (pure a) P := by
  intro i b i' heq
  obtain ⟨rfl, -⟩ := Prod.mk.inj (Option.some.inj heq)
  exact h

/-- What is made of something that is read has a property if it is made of anything with another one.
-/
theorem Yields.map {r : Reader α} {f : α → β} (hr : Yields r P) (hf : ∀ a, P a → Q (f a)) :
    Yields (f <$> r) Q := by
  have hmap : f <$> r = r >>= fun a => pure (f a) := rfl
  rw [hmap]
  exact hr.bind fun a ha => yields_pure (hf a ha)

/-- A reader that fails yields nothing, so nothing without the property. -/
theorem yields_failure : Yields (failure : Reader α) P :=
  nofun

/-- What a lexeme is read as has a property if all that its function comes to does. -/
theorem yields_lexeme {read : Rest → Option (α × Rest)}
    (h : ∀ cs a rest, read cs = some (a, rest) → P a) : Yields (lexeme read) P := by
  intro i a i' hread
  obtain ⟨⟨b, rest⟩, hb, heq⟩ := Option.map_eq_some_iff.mp hread
  obtain ⟨rfl, -⟩ := Prod.mk.inj heq
  exact h _ _ _ hb

/-- The property of a value does not depend on where it has been read. -/
theorem yields_spanned {read : Reader α} (h : Yields read P) :
    Yields (spanned read) fun x => P x.value := by
  refine yields_bind fun _ => ?_
  refine h.bind fun a ha => ?_
  refine yields_bind fun _ => ?_
  exact yields_pure ha

/-- All items up to a closing bracket have a property if any item does. -/
theorem yields_itemsUpTo (close : Char) {item : Reader α} (h : Yields item P) (bound : Nat) :
    Yields (itemsUpTo close item bound) fun as => ∀ a ∈ as, P a := by
  -- by induction on the number of items: they end at once, after an item, or after a comma
  induction bound with
  | zero => exact yields_failure
  | succ bound ih =>
    unfold itemsUpTo
    refine yields_bind fun _ => ?_
    refine yields_bind fun closed => ?_
    split
    · exact yields_pure (List.forall_mem_nil _)
    refine h.bind fun a ha => ?_
    refine yields_bind fun _ => ?_
    refine yields_bind fun more => ?_
    split
    · exact ih.bind fun as has => yields_pure (List.forall_mem_cons.mpr ⟨ha, has⟩)
    · refine yields_bind fun _ => ?_
      exact yields_pure (List.forall_mem_singleton.mpr ha)

/-- An array of proper values is proper. -/
theorem yields_array {value : Reader (Spanned Value)} (h : Yields value fun x => x.value.Proper) :
    Yields (array value) Value.Proper := by
  refine Yields.bind ?_ fun items hitems => yields_pure (Value.proper_array_iff.mpr hitems)
  refine yields_bind fun _ => ?_
  refine yields_bind fun bound => ?_
  exact yields_itemsUpTo ']' h bound

/-- An entry with a proper value is proper. -/
theorem yields_entry (skipped : Rest → Rest) {value : Reader (Spanned Value)}
    (h : Yields value fun x => x.value.Proper) :
    Yields (entry skipped value) Entry.Proper := by
  refine yields_bind fun path => ?_
  refine yields_bind fun _ => ?_
  refine yields_bind fun _ => ?_
  refine yields_bind fun _ => ?_
  exact h.bind fun x hx => yields_pure hx

/-- A result that is there already has the property if it does in case it is there. -/
theorem yields_lift {x : Option α} (h : ∀ a, x = some a → P a) :
    Yields (liftM x) P := by
  intro i a i' heq
  obtain ⟨b, hb, heq⟩ := Option.bind_eq_some_iff.mp heq
  obtain ⟨rfl, -⟩ := Prod.mk.inj (Option.some.inj heq)
  exact h _ hb

/-- An inline table is put together like any other, so no key is in it twice. -/
theorem yields_inlineTable {value : Reader (Spanned Value)}
    (h : Yields value fun x => x.value.Proper) : Yields (inlineTable value) Value.Proper := by
  refine Yields.bind (P := fun es => ∀ e ∈ es, e.Proper) ?_ fun es hes => ?_
  · refine yields_bind fun _ => ?_
    refine yields_bind fun bound => ?_
    exact yields_itemsUpTo '}' (yields_entry _ h) bound
  · have htable : ∀ t, Table.addAll? ⟨.inline, []⟩ es = some t → t.Proper := fun t ht =>
      (Table.proper_nil .inline).addAll? hes ht
    refine (yields_lift htable).bind fun t ht => ?_
    exact yields_pure (Value.proper_table_iff.mpr ht)

/-- Values that are not made up of others are proper. -/
theorem yields_simpleValue : Yields simpleValue Value.Proper := by
  unfold simpleValue
  refine yields_bind fun c => ?_
  refine yields_bind fun c => ?_
  split
  · refine yields_bind fun cs => ?_
    exact yields_pure (.string _)
  · exact yields_lexeme fun cs v rest => proper_of_bareValue?

/-- Values are proper, however deep they nest. -/
theorem yields_value (depth : Nat) : Yields (value depth) fun x => x.value.Proper := by
  -- what a value is made up of nests one level less deep
  induction depth with
  | zero => exact yields_spanned yields_simpleValue
  | succ depth ih =>
    refine yields_spanned ?_
    refine yields_bind fun c => ?_
    split
    · exact yields_array ih
    · exact yields_inlineTable ih
    · exact yields_simpleValue

/-- The value that a line holds is proper, if it holds one. -/
def Line.Proper : Line → Prop
  | .entry e => e.Proper
  | .blank | .header _ => True

/-- A line of a document is an entry with a proper value, or a header. -/
theorem yields_line : Yields line Line.Proper := by
  have hblank : Yields (pure Line.blank) Line.Proper := yields_pure trivial
  have hheader : Yields (Line.header <$> header) Line.Proper :=
    (yields_true header).map fun _ _ => trivial
  have hentry : Yields (Line.entry <$> entry skipSpaces (value maxDepth)) Line.Proper :=
    (yields_entry _ (yields_value maxDepth)).map fun _ he => he
  -- the end of the line does not change what has been read
  have hend : ∀ {content : Reader Line}, Yields content Line.Proper → Yields (do
      let content ← content
      lexeme fun cs => (skipToLineEnd? cs).map ((), ·)
      return content) Line.Proper := fun hcontent =>
    hcontent.bind fun _ hline => yields_bind fun _ => yields_pure hline
  refine yields_bind fun _ => ?_
  refine yields_bind fun c => ?_
  split
  · exact hend hblank
  · exact hend hblank
  · exact hend hblank
  · exact hend hblank
  · exact hend hheader
  · exact hend hentry

/-- The lines of a document are proper entries, and sections with proper entries. -/
theorem yields_linesUpTo (bound : Nat) :
    Yields (linesUpTo bound) fun x => (∀ e ∈ x.1, e.Proper) ∧ ∀ s ∈ x.2, s.Proper := by
  induction bound with
  | zero => exact yields_failure
  | succ bound ih =>
    unfold linesUpTo
    refine yields_bind fun c => ?_
    split
    · exact yields_pure ⟨List.forall_mem_nil _, List.forall_mem_nil _⟩
    refine yields_line.bind fun content hcontent => ?_
    refine ih.bind ?_
    rintro ⟨entries, sections⟩ ⟨hentries, hsections⟩
    cases content with
    | blank => exact yields_pure ⟨hentries, hsections⟩
    | entry e => exact yields_pure ⟨List.forall_mem_cons.mpr ⟨hcontent, hentries⟩, hsections⟩
    | header h =>
      -- the entries below the header belong to it, and the lines start over
      exact yields_pure ⟨List.forall_mem_nil _, List.forall_mem_cons.mpr ⟨hentries, hsections⟩⟩

/-- A document that is read has no table with a key twice. -/
theorem yields_document : Yields document Table.Proper := by
  refine yields_bind fun _ => ?_
  refine yields_bind fun bound => ?_
  refine (yields_linesUpTo bound).bind ?_
  rintro ⟨entries, sections⟩ ⟨hentries, hsections⟩
  exact yields_lift fun d hd => Document.proper_of_ofSections? hentries hsections hd

end Reader

/-- In a document that has been read, no table has a key twice. -/
theorem Document.proper_of_ofText? {text : String} {d : Document} (h : ofText? text = some d) :
    Table.Proper d := by
  obtain ⟨⟨d', i⟩, hread, rfl⟩ := Option.map_eq_some_iff.mp h
  exact Reader.yields_document _ d' i hread

end MigrationLint.Toml
