/-!
# UTF-8

Characters and their encoding as bytes. Decoding comes in two forms: `decode?` refuses ill-formed
input, `decodeLossy` puts one U+FFFD in the place of each maximal ill-formed sequence. `slice?`
cuts a text at byte offsets.
-/

namespace MigrationLint.Utf8

/-- A sequence of bytes, such as the content of a file. -/
abbrev Bytes := List UInt8

/-- The bytes that encode the characters, in order. -/
def encode (cs : List Char) : Bytes :=
  cs.flatMap String.utf8EncodeChar

/-- What the first byte of a multi-byte sequence announces. -/
structure Lead where
  /-- The bits of the code point that the first byte carries. -/
  bits : Nat
  /-- The number of continuation bytes. -/
  more : Nat
  /-- The least continuation byte that may stand first. -/
  low : UInt8 := 0x80
  /-- The greatest continuation byte that may stand first. -/
  high : UInt8 := 0xbf

/-- Which sequence a byte from 0x80 on can start, if any. The narrowed ranges exclude overlong
forms, surrogates and code points above U+10FFFF. -/
def lead? (b : UInt8) : Option Lead :=
  let n := b.toNat
  if n < 0xc2 then none
  else if n < 0xe0 then some ⟨n - 0xc0, 1, 0x80, 0xbf⟩
  else if n = 0xe0 then some ⟨0, 2, 0xa0, 0xbf⟩
  else if n = 0xed then some ⟨0xd, 2, 0x80, 0x9f⟩
  else if n < 0xf0 then some ⟨n - 0xe0, 2, 0x80, 0xbf⟩
  else if n = 0xf0 then some ⟨0, 3, 0x90, 0xbf⟩
  else if n < 0xf4 then some ⟨n - 0xf0, 3, 0x80, 0xbf⟩
  else if n = 0xf4 then some ⟨4, 3, 0x80, 0x8f⟩
  else none

/-- Reads the announced continuation bytes: the code point if all of them are there, and what is
left after the bytes that fit. -/
def readRest (bits : Nat) : Nat → UInt8 → UInt8 → Bytes → Option Nat × Bytes
  | 0, _, _, rest => (some bits, rest)
  | _ + 1, _, _, [] => (none, [])
  | n + 1, low, high, b :: rest =>
    if low ≤ b ∧ b ≤ high then readRest (bits * 64 + b.toNat % 64) n 0x80 0xbf rest
    else (none, b :: rest)

theorem readRest_length (bits n : Nat) (low high : UInt8) (rest : Bytes) :
    (readRest bits n low high rest).2.length ≤ rest.length := by
  fun_induction readRest bits n low high rest with
  | case1 => simp
  | case2 => simp
  | case3 _ n low high b rest _ ih => simp only [List.length_cons]; omega
  | case4 => simp

/-- Reads one character, or `none` for a maximal ill-formed sequence, and what is left. -/
def readChar (b : UInt8) (rest : Bytes) : Option Char × Bytes :=
  if b < 0x80 then (some (Char.ofNat b.toNat), rest)
  else
    match lead? b with
    | none => (none, rest)
    | some l =>
      let (code, rest) := readRest l.bits l.more l.low l.high rest
      (code.map Char.ofNat, rest)

theorem readChar_length (b : UInt8) (rest : Bytes) :
    (readChar b rest).2.length ≤ rest.length := by
  unfold readChar
  split
  · simp
  · split
    · simp
    · exact readRest_length ..

/-- The characters of the bytes, with U+FFFD for each maximal ill-formed sequence. -/
def decodeLossy : Bytes → List Char
  | [] => []
  | b :: rest =>
    (readChar b rest).1.getD '\ufffd' :: decodeLossy (readChar b rest).2
termination_by bs => bs.length
decreasing_by
  have := readChar_length b rest
  simp only [List.length_cons]; omega

/-- The characters of the bytes, if all of them are well formed. -/
def decode? : Bytes → Option (List Char)
  | [] => some []
  | b :: rest =>
    match (readChar b rest).1 with
    | none => none
    | some c => (decode? (readChar b rest).2).map (c :: ·)
termination_by bs => bs.length
decreasing_by
  have := readChar_length b rest
  simp only [List.length_cons]; omega

/-- Drops the characters that fill the first `n` bytes, if a character ends there. -/
def dropBytes : Nat → List Char → Option (List Char)
  | 0, cs => some cs
  | _ + 1, [] => none
  | n + 1, c :: cs => if c.utf8Size ≤ n + 1 then dropBytes (n + 1 - c.utf8Size) cs else none

/-- Takes the characters that fill the first `n` bytes, if a character ends there. -/
def takeBytes : Nat → List Char → Option (List Char)
  | 0, _ => some []
  | _ + 1, [] => none
  | n + 1, c :: cs =>
    if c.utf8Size ≤ n + 1 then (takeBytes (n + 1 - c.utf8Size) cs).map (c :: ·) else none

/-- The text between two byte offsets, if its bytes are well formed on their own: the offsets
are character boundaries, or there is nothing between them. -/
def slice? (cs : List Char) (first last : Nat) : Option (List Char) :=
  if last ≤ first then some []
  else (dropBytes first cs).bind (takeBytes (last - first))

end MigrationLint.Utf8
