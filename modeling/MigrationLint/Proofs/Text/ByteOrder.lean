import Mathlib.Tactic.SplitIfs
import MigrationLint.Proofs.Text.Utf8

/-!
# The order of bytes is the order of characters

Texts are put in order by comparing their code points one by one. The bytes that encode them are in
the same order: a greater code point has a greater first byte or, if its first byte is the same, a
greater one among the continuation bytes. So sorting texts and sorting their bytes agree.

* `utf8EncodeChar_append_lt`: the bytes of two characters are in the order of the characters;
* `encode_lt_encode`: so are the bytes of two texts.
-/

namespace MigrationLint.Utf8

/-- Bytes that are made from numbers are compared as numbers, and then by what follows them. -/
theorem ofNat_cons_lt_iff {m n : Nat} {as bs : Bytes} (hm : m < 0x100) (hn : n < 0x100) :
    UInt8.ofNat m :: as < UInt8.ofNat n :: bs ↔ m < n ∨ m = n ∧ as < bs := by
  have hlt : UInt8.ofNat m < UInt8.ofNat n ↔ m < n := by
    rw [UInt8.lt_iff_toNat_lt, toNat_ofNat hm, toNat_ofNat hn]
  have heq : UInt8.ofNat m = UInt8.ofNat n ↔ m = n := by
    rw [← UInt8.toNat_inj, toNat_ofNat hm, toNat_ofNat hn]
  rw [List.cons_lt_cons_iff, hlt, heq]

/-- Numbers are compared by their digits to the base 64, the most significant one first. -/
theorem digits_lt {m n : Nat} (h : m < n) :
    m / 262144 < n / 262144 ∨ m / 262144 = n / 262144 ∧
      (m / 4096 % 64 < n / 4096 % 64 ∨ m / 4096 % 64 = n / 4096 % 64 ∧
        (m / 64 % 64 < n / 64 % 64 ∨ m / 64 % 64 = n / 64 % 64 ∧ m % 64 < n % 64)) := by
  have hdigit : ∀ {a b : Nat}, a < b → a / 64 < b / 64 ∨ a / 64 = b / 64 ∧ a % 64 < b % 64 := by
    intro a b hab
    omega
  have hshift : ∀ a : Nat, a / 64 / 64 = a / 4096 ∧ a / 4096 / 64 = a / 262144 := by
    intro a
    omega
  obtain ⟨hm, hm'⟩ := hshift m
  obtain ⟨hn, hn'⟩ := hshift n
  rcases hdigit h with h | ⟨heq, hlast⟩
  · rcases hdigit h with h | ⟨heq, hlast⟩
    · rcases hdigit h with h | ⟨heq, hlast⟩
      · exact .inl (by omega)
      · exact .inr ⟨by omega, .inl (by omega)⟩
    · exact .inr ⟨by omega, .inr ⟨by omega, .inl hlast⟩⟩
  · exact .inr ⟨by omega, .inr ⟨by omega, .inr ⟨by omega, hlast⟩⟩⟩

/-- The bytes of a smaller character come before those of a greater one, whatever follows them. -/
theorem utf8EncodeChar_append_lt {c d : Char} (h : c < d) (as bs : Bytes) :
    String.utf8EncodeChar c ++ as < String.utf8EncodeChar d ++ bs := by
  have hvw : c.val.toNat < d.val.toNat := h
  have hbound : d.val.toNat < 0x110000 := by
    have hvalid : d.val.toNat < 0xd800 ∨ 0xdfff < d.val.toNat ∧ d.val.toNat < 0x110000 := d.valid
    omega
  rw [String.utf8EncodeChar, String.utf8EncodeChar]
  generalize c.val.toNat = v at hvw
  generalize d.val.toNat = w at hvw hbound
  have horder := digits_lt hvw
  have hv : v / 262144 % 8 = v / 262144 := Nat.mod_eq_of_lt (by omega)
  have hw : w / 262144 % 8 = w / 262144 := Nat.mod_eq_of_lt (by omega)
  -- A longer sequence starts with a greater byte; in sequences of one length the bytes carry the
  -- digits of the code points, the most significant one first.
  split_ifs
  all_goals
    simp only [List.cons_append, List.nil_append]
    try omega
  all_goals
    repeat rw [ofNat_cons_lt_iff (by omega) (by omega)]
    omega

/-- The bytes of texts are in the order of the texts. -/
theorem encode_lt_encode {cs ds : List Char} (h : cs < ds) : encode cs < encode ds := by
  induction h with
  | @nil d ds =>
    obtain ⟨b, bs, hbytes, -⟩ := readChar_utf8EncodeChar d []
    rw [encode, encode, List.flatMap_nil, List.flatMap_cons, hbytes]
    exact List.nil_lt_cons _ _
  | @rel c cs d ds hcd =>
    rw [encode, encode, List.flatMap_cons, List.flatMap_cons]
    exact utf8EncodeChar_append_lt hcd _ _
  | @cons c cs ds _ ih =>
    rw [encode, encode, List.flatMap_cons, List.flatMap_cons]
    exact List.append_left_lt ih

end MigrationLint.Utf8
