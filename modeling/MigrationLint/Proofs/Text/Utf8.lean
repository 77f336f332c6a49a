import MigrationLint.Text.Utf8

/-!
# Decoding inverts encoding

A file that holds a text is read as that text. The bytes of a character announce its length, and
each of them carries some bits of its code point; `readChar` puts the code point together again.

* `utf8EncodeChar_of_lt`, `exists_utf8EncodeChar_eq_of_le`: which bytes are ASCII;
* `readChar_utf8EncodeChar`: a character is read back from its bytes;
* `decodeLossy_encode`, `decode?_encode`: so is a text, and nothing is replaced or refused;
* `slice?_append`: what is between two places where characters end is cut out as it is.
-/

namespace MigrationLint.Utf8

/-! ## The bytes of a character -/

/-- A byte has the number that it is made from. -/
theorem toNat_ofNat {n : Nat} (hn : n < 0x100) : (UInt8.ofNat n).toNat = n :=
  UInt8.toNat_ofNat_of_lt hn

/-- A byte with a number from 0x80 on is not ASCII. -/
theorem le_ofNat {n : Nat} (hlow : 0x80 ≤ n) (hhigh : n < 0x100) : 0x80 ≤ UInt8.ofNat n := by
  rw [UInt8.le_iff_toNat_le, toNat_ofNat hhigh]
  exact hlow

/-- The byte of an ASCII character is its code point. -/
theorem utf8EncodeChar_of_lt {c : Char} (hc : c.toNat < 0x80) :
    String.utf8EncodeChar c = [.ofNat c.toNat] :=
  if_pos (Nat.le_of_lt_succ hc)

/-- The bytes of any other character are not ASCII. -/
theorem exists_utf8EncodeChar_eq_of_le {c : Char} (hc : 0x80 ≤ c.toNat) :
    ∃ b bs, String.utf8EncodeChar c = b :: bs ∧ 0x80 ≤ b ∧ ∀ b' ∈ bs, 0x80 ≤ b' := by
  have hvalid : c.val.toNat < 0x110000 := by
    rcases c.valid with h | h <;> omega
  have hone : ¬c.val.toNat ≤ 0x7f := Nat.not_le.mpr hc
  rw [String.utf8EncodeChar]
  generalize c.val.toNat = v at hvalid hone
  -- the cases are the lengths, and each byte but the first one has the bit 0x80 on top
  by_cases htwo : v ≤ 0x7ff
  · refine ⟨_, _, (if_neg hone).trans (if_pos htwo), le_ofNat (by omega) (by omega), ?_⟩
    exact List.forall_mem_singleton.mpr (le_ofNat (by omega) (by omega))
  by_cases hthree : v ≤ 0xffff
  · refine ⟨_, _, (if_neg hone).trans ((if_neg htwo).trans (if_pos hthree)),
      le_ofNat (by omega) (by omega), List.forall_mem_cons.mpr ⟨?_, ?_⟩⟩
    · exact le_ofNat (by omega) (by omega)
    · exact List.forall_mem_singleton.mpr (le_ofNat (by omega) (by omega))
  · refine ⟨_, _, (if_neg hone).trans ((if_neg htwo).trans (if_neg hthree)),
      le_ofNat (by omega) (by omega),
      List.forall_mem_cons.mpr ⟨?_, List.forall_mem_cons.mpr ⟨?_, ?_⟩⟩⟩
    · exact le_ofNat (by omega) (by omega)
    · exact le_ofNat (by omega) (by omega)
    · exact List.forall_mem_singleton.mpr (le_ofNat (by omega) (by omega))

/-- The first of two bytes. -/
theorem lead?_of_two {n : Nat} (hlow : 2 ≤ n) (hhigh : n < 0x20) :
    lead? (.ofNat (n + 0xc0)) = some ⟨n, 1, 0x80, 0xbf⟩ := by
  have hbyte : (UInt8.ofNat (n + 0xc0)).toNat = n + 0xc0 := toNat_ofNat (by omega)
  rw [lead?, hbyte, if_neg (by omega), if_pos (by omega), Nat.add_sub_cancel]

/-- The first of three bytes. -/
theorem lead?_of_three {n : Nat} (hn : n < 0x10) :
    lead? (.ofNat (n + 0xe0)) =
      some ⟨n, 2, if n = 0 then 0xa0 else 0x80, if n = 0xd then 0x9f else 0xbf⟩ := by
  have hbyte : (UInt8.ofNat (n + 0xe0)).toNat = n + 0xe0 := toNat_ofNat (by omega)
  rw [lead?, hbyte, if_neg (by omega), if_neg (by omega)]
  by_cases hzero : n = 0
  · simp [hzero]
  by_cases hsurrogate : n = 0xd
  · simp [hsurrogate]
  rw [if_neg (by omega), if_neg (by omega), if_pos (by omega), Nat.add_sub_cancel, if_neg hzero,
    if_neg hsurrogate]

/-- The first of four bytes. -/
theorem lead?_of_four {n : Nat} (hn : n ≤ 4) :
    lead? (.ofNat (n + 0xf0)) =
      some ⟨n, 3, if n = 0 then 0x90 else 0x80, if n = 4 then 0x8f else 0xbf⟩ := by
  have hbyte : (UInt8.ofNat (n + 0xf0)).toNat = n + 0xf0 := toNat_ofNat (by omega)
  rw [lead?, hbyte, if_neg (by omega), if_neg (by omega), if_neg (by omega), if_neg (by omega),
    if_neg (by omega)]
  by_cases hzero : n = 0
  · simp [hzero]
  by_cases hlast : n = 4
  · simp [hlast]
  rw [if_neg (by omega), if_pos (by omega), Nat.add_sub_cancel, if_neg hzero, if_neg hlast]

/-- A continuation byte adds six bits to those read so far. -/
theorem readRest_cons {bits n k : Nat} {low high : UInt8} {rest : Bytes} (hk : k < 0x40)
    (hlow : low.toNat ≤ k + 0x80) (hhigh : k + 0x80 ≤ high.toNat) :
    readRest bits (n + 1) low high (.ofNat (k + 0x80) :: rest) =
      readRest (bits * 64 + k) n 0x80 0xbf rest := by
  have hbyte : (UInt8.ofNat (k + 0x80)).toNat = k + 0x80 := toNat_ofNat (by omega)
  have hfits : low ≤ .ofNat (k + 0x80) ∧ .ofNat (k + 0x80) ≤ high := by
    rw [UInt8.le_iff_toNat_le, UInt8.le_iff_toNat_le, hbyte]
    exact ⟨hlow, hhigh⟩
  rw [readRest, if_pos hfits, hbyte]
  congr
  omega

/-- Any continuation byte may stand after the first one. -/
theorem readRest_cons_of_later {bits n k : Nat} {rest : Bytes} (hk : k < 0x40) :
    readRest bits (n + 1) 0x80 0xbf (.ofNat (k + 0x80) :: rest) =
      readRest (bits * 64 + k) n 0x80 0xbf rest := by
  have hlow : (0x80 : UInt8).toNat = 0x80 := rfl
  have hhigh : (0xbf : UInt8).toNat = 0xbf := rfl
  exact readRest_cons hk (by omega) (by omega)

/-- A byte that is not ASCII leads to the bytes that it announces. -/
theorem readChar_of_lead {n : Nat} {l : Lead} {rest : Bytes} (hlow : 0x80 ≤ n) (hhigh : n < 0x100)
    (hlead : lead? (.ofNat n) = some l) :
    readChar (.ofNat n) rest =
      ((readRest l.bits l.more l.low l.high rest).1.map Char.ofNat,
        (readRest l.bits l.more l.low l.high rest).2) := by
  have hbyte : (UInt8.ofNat n).toNat = n := toNat_ofNat hhigh
  have hmulti : ¬UInt8.ofNat n < 0x80 := by
    rw [UInt8.lt_iff_toNat_lt, hbyte]
    exact Nat.not_lt.mpr hlow
  rw [readChar, if_neg hmulti, hlead]

/-- A character is read back from its bytes, whatever follows them. -/
theorem readChar_utf8EncodeChar (c : Char) (rest : Bytes) :
    ∃ b bs, String.utf8EncodeChar c = b :: bs ∧ readChar b (bs ++ rest) = (some c, rest) := by
  have hvalid : c.val.toNat < 0xd800 ∨ 0xdfff < c.val.toNat ∧ c.val.toNat < 0x110000 := c.valid
  have hback : Char.ofNat c.val.toNat = c := Char.ofNat_toNat c
  rw [String.utf8EncodeChar]
  generalize c.val.toNat = v at hvalid hback
  -- the cases are the lengths; what is read adds up to the code point again
  by_cases hone : v ≤ 0x7f
  · refine ⟨_, _, if_pos hone, ?_⟩
    have hbyte : (UInt8.ofNat v).toNat = v := toNat_ofNat (by omega)
    have hascii : UInt8.ofNat v < 0x80 := by
      rw [UInt8.lt_iff_toNat_lt, hbyte]
      exact Nat.lt_succ_of_le hone
    rw [readChar, if_pos hascii, hbyte, hback]
    rfl
  by_cases htwo : v ≤ 0x7ff
  · refine ⟨_, _, (if_neg hone).trans (if_pos htwo), ?_⟩
    have hcode : v / 64 % 0x20 * 64 + v % 0x40 = v := by omega
    rw [readChar_of_lead (by omega) (by omega) (lead?_of_two (by omega) (by omega)),
      List.singleton_append, readRest_cons_of_later (by omega), readRest, hcode, Option.map_some,
      hback]
  by_cases hthree : v ≤ 0xffff
  · refine ⟨_, _, (if_neg hone).trans ((if_neg htwo).trans (if_pos hthree)), ?_⟩
    have hcode : (v / 4096 % 0x10 * 64 + v / 64 % 0x40) * 64 + v % 0x40 = v := by omega
    rw [readChar_of_lead (by omega) (by omega) (lead?_of_three (by omega)), List.cons_append,
      List.singleton_append, readRest_cons (by omega), readRest_cons_of_later (by omega), readRest,
      hcode, Option.map_some, hback]
    all_goals
      dsimp only
      split
      all_goals
        simp only [UInt8.reduceToNat]
        omega
  · refine ⟨_, _, (if_neg hone).trans ((if_neg htwo).trans (if_neg hthree)), ?_⟩
    have hcode : ((v / 262144 % 0x08 * 64 + v / 4096 % 0x40) * 64 + v / 64 % 0x40) * 64 +
        v % 0x40 = v := by omega
    rw [readChar_of_lead (by omega) (by omega) (lead?_of_four (by omega)), List.cons_append,
      List.cons_append, List.singleton_append, readRest_cons (by omega),
      readRest_cons_of_later (by omega), readRest_cons_of_later (by omega), readRest, hcode,
      Option.map_some, hback]
    all_goals
      dsimp only
      split
      all_goals
        simp only [UInt8.reduceToNat]
        omega

/-- The bytes of a text start with those of its first character. -/
theorem exists_encode_cons (c : Char) (cs : List Char) :
    ∃ b bs, encode (c :: cs) = b :: bs ∧ readChar b bs = (some c, encode cs) := by
  obtain ⟨b, bs, hbytes, hread⟩ := readChar_utf8EncodeChar c (encode cs)
  refine ⟨b, bs ++ encode cs, ?_, hread⟩
  rw [encode, List.flatMap_cons, hbytes]
  rfl

/-- A text is read back from its bytes. -/
theorem decodeLossy_encode (cs : List Char) : decodeLossy (encode cs) = cs := by
  induction cs with
  | nil => rw [encode, List.flatMap_nil, decodeLossy]
  | cons c cs ih =>
    obtain ⟨b, bs, hencode, hread⟩ := exists_encode_cons c cs
    rw [hencode, decodeLossy, hread, ih]
    rfl

theorem length_encode_cons (c : Char) (cs : List Char) :
    (encode (c :: cs)).length = c.utf8Size + (encode cs).length := by
  rw [encode, List.flatMap_cons, List.length_append, String.length_utf8EncodeChar, encode]

theorem dropBytes_cons {c : Char} {n : Nat} (hn : c.utf8Size ≤ n) (cs : List Char) :
    dropBytes n (c :: cs) = dropBytes (n - c.utf8Size) cs := by
  cases n with
  | zero => exact absurd c.utf8Size_pos (Nat.not_lt.mpr hn)
  | succ n => rw [dropBytes, if_pos hn]

theorem takeBytes_cons {c : Char} {n : Nat} (hn : c.utf8Size ≤ n) (cs : List Char) :
    takeBytes n (c :: cs) = (takeBytes (n - c.utf8Size) cs).map (c :: ·) := by
  cases n with
  | zero => exact absurd c.utf8Size_pos (Nat.not_lt.mpr hn)
  | succ n => rw [takeBytes, if_pos hn]

/-- The bytes of a text that comes first are dropped. -/
theorem dropBytes_append (cs ds : List Char) : dropBytes (encode cs).length (cs ++ ds) = some ds := by
  induction cs with
  | nil => rw [encode, List.flatMap_nil, List.length_nil, dropBytes, List.nil_append]
  | cons c cs ih =>
    rw [length_encode_cons, List.cons_append, dropBytes_cons (Nat.le_add_right ..),
      Nat.add_sub_cancel_left, ih]

/-- The bytes of a text that comes first hold that text. -/
theorem takeBytes_append (cs ds : List Char) : takeBytes (encode cs).length (cs ++ ds) = some cs := by
  induction cs with
  | nil => rw [encode, List.flatMap_nil, List.length_nil, takeBytes]
  | cons c cs ih =>
    rw [length_encode_cons, List.cons_append, takeBytes_cons (Nat.le_add_right ..),
      Nat.add_sub_cancel_left, ih]
    rfl

/-- The text between two places where characters end. -/
theorem slice?_append (before cs after : List Char) :
    slice? (before ++ cs ++ after) (encode before).length (encode (before ++ cs)).length =
      some cs := by
  have hlength : (encode (before ++ cs)).length = (encode before).length + (encode cs).length := by
    rw [encode, List.flatMap_append, List.length_append, encode, encode]
  cases cs with
  | nil => rw [slice?, if_pos (Nat.le_of_eq (by rw [List.append_nil]))]
  | cons c cs =>
    -- there are bytes to take, since no character goes without
    have hlast : ¬(encode (before ++ c :: cs)).length ≤ (encode before).length := by
      have hpos := c.utf8Size_pos
      have hcons := length_encode_cons c cs
      omega
    rw [slice?, if_neg hlast, hlength, Nat.add_sub_cancel_left, List.append_assoc, dropBytes_append,
      Option.bind_some, takeBytes_append]

end MigrationLint.Utf8
