import MigrationLint.Glob.Reader

/-!
# Patterns as regular expressions

Patterns are matched in one of three ways. A pattern that only fixes how a path starts or ends is
compared with it. Every other one is compiled as a regular expression over bytes: by itself if it
fixes an extension, else together with the others. Groups of a regular expression, and what they
are made up of, nest up to a fixed depth. So there are patterns that are well formed but cannot be
compiled. A pattern can also be too large to be compiled, which is not looked at.
-/

namespace MigrationLint

namespace Glob

namespace Token

/-! ## The text of an expression -/

/-- The characters that have a meaning of their own in an expression. -/
def isMeta (c : Char) : Bool :=
  c ∈ ['\\', '.', '+', '*', '?', '(', ')', '|', '[', ']', '\x7b', '\x7d', '^', '$', '#', '&', '-',
    '~']

/-- The expression for one byte. -/
def byteExpression (b : UInt8) : List Char :=
  let c := Char.ofNat b.toNat
  if 0x80 ≤ b then ['\\', 'x'] ++ Nat.toDigits 16 b.toNat
  else if isMeta c then ['\\', c]
  else [c]

/-- The expression for one character, byte by byte. -/
def charExpression (c : Char) : List Char :=
  (String.utf8EncodeChar c).flatMap byteExpression

/-- The expression for a member of a class. -/
def memberExpression (member : Char × Char) : List Char :=
  if member.1 = member.2 then charExpression member.1
  else charExpression member.1 ++ '-' :: charExpression member.2

/-- The expression for one of several alternatives, each with content. -/
def choiceExpression : List (List Char) → List Char
  | [] => []
  | e :: es => ['(', '?', ':'] ++ es.foldl (fun text e => text ++ '|' :: e) e ++ [')']

mutual

/-- The expression for a token, empty if the token has no content. -/
def expression : Token → List Char
  | literal c => charExpression c
  | anyByte => ['.']
  | anyBytes => ['.', '*']
  | leadingLevels => "(?:/?|.*/)".toList
  | trailingLevels => "/.*".toList
  | innerLevels => "(?:/|/.*/)".toList
  | oneOf negated members =>
    '[' :: (if negated then ['^'] else []) ++ members.flatMap memberExpression ++ [']']
  | group alternatives => choiceExpression (alternativeExpressions alternatives)

/-- The expression for a sequence of tokens. -/
def sequenceExpression : List Token → List Char
  | [] => []
  | t :: ts => t.expression ++ sequenceExpression ts

/-- The expressions for those alternatives that have content. -/
def alternativeExpressions : List (List Token) → List (List Char)
  | [] => []
  | ts :: alternatives =>
    match sequenceExpression ts with
    | [] => alternativeExpressions alternatives
    | e => e :: alternativeExpressions alternatives

end

/-! ## The depth of an expression -/

/-- The greatest number of a list, zero if it is empty. -/
def greatest (ns : List Nat) : Nat :=
  ns.foldl max 0

/-- The depth of a sequence of parts with the given depths. A sequence of one part is the part. -/
def sequenceDepth : List Nat → Nat
  | [n] => n
  | ns => greatest ns + 1

/-- The depths of the parts for a group whose alternatives with content have the given depths. The
group is a level, and the choice between several alternatives is another one. -/
def choiceDepths : List Nat → List Nat
  | [] => []
  | [n] => [n + 1]
  | ns => [greatest ns + 2]

mutual

/-- The depths of the parts of an expression that a token is compiled to: a byte has none, a
repetition and a class have one level, and so has the list of several members in a class. -/
def depths : Token → List Nat
  | literal c => (String.utf8EncodeChar c).map fun _ => 0
  | anyByte => [0]
  | anyBytes => [1]
  | leadingLevels | innerLevels => [4]
  | trailingLevels => [0, 1]
  | oneOf _ members => [if (members.flatMap memberRanges).length = 1 then 1 else 2]
  | group alternatives => choiceDepths (alternativeDepths alternatives)

/-- The depths of the parts for a sequence of tokens. -/
def partDepths : List Token → List Nat
  | [] => []
  | t :: ts => t.depths ++ partDepths ts

/-- The depths of those alternatives that have content. -/
def alternativeDepths : List (List Token) → List Nat
  | [] => []
  | ts :: alternatives =>
    match partDepths ts with
    | [] => alternativeDepths alternatives
    | ns => sequenceDepth ns :: alternativeDepths alternatives

end

end Token

/-- The regular expression of a pattern. -/
def expression (g : Glob) : String :=
  let body := match g.tokens with
    | [.leadingLevels] => ['.', '*']
    | ts => Token.sequenceExpression ts
  String.ofList ("(?-u)^".toList ++ body ++ ['$'])

/-- How deep the regular expression of a pattern nests. The whole is a sequence, as it has marks at
its start and its end. -/
def depth (g : Glob) : Nat :=
  Token.greatest (Token.partDepths g.tokens) + 1

/-- How deep an expression may nest. -/
def maxDepth : Nat := 250

/-- The expression nests too deep to be compiled. -/
def isTooDeep (g : Glob) : Bool :=
  maxDepth < g.depth

/-! ## Ways to match a pattern -/

/-- The token is a character that stands for itself. -/
def Token.isLiteral : Token → Bool
  | literal _ => true
  | _ => false

/-- The tokens fix how a path starts, and nothing else unless it is the whole path. -/
def fixesStart (ts : List Token) : Bool :=
  match ts.getLast? with
  | none => false
  | some .trailingLevels => ts.dropLast.all Token.isLiteral
  | some .anyBytes => 1 < ts.length && ts.dropLast.all Token.isLiteral
  | some _ => ts.all Token.isLiteral

/-- The tokens are characters that can stand at the end of a path, and not just a separator. -/
def isEnding : List Token → Bool
  | [] => false
  | [.literal c] => c ≠ '/'
  | ts => ts.all Token.isLiteral

/-- The tokens fix how a path ends, and nothing else. -/
def fixesEnd : List Token → Bool
  | .leadingLevels :: .anyBytes :: ts => isEnding ts
  | .leadingLevels :: ts => !ts.isEmpty && ts.all Token.isLiteral
  | .anyBytes :: ts => isEnding ts
  | ts => isEnding ts

/-- The tokens, last one first, end in a point with characters other than separators after it. -/
def hasExtension : List Token → Bool
  | .literal c :: ts => c = '.' || (c ≠ '/' && hasExtension ts)
  | _ => false

/-- A way to match a pattern. -/
inductive Method
  /-- By comparing the start or the end of a path. -/
  | compared
  /-- As a regular expression of its own. -/
  | alone
  /-- As one of several regular expressions. -/
  | together
  deriving DecidableEq, Repr

/-- How a pattern is matched. -/
def method (g : Glob) : Method :=
  if fixesStart g.tokens || fixesEnd g.tokens then .compared
  else if hasExtension g.tokens.reverse then .alone
  else .together

/-! ## Patterns that cannot be compiled -/

/-- Which expression nests too deep. -/
inductive CompileFault
  /-- One of its own. -/
  | alone (expression : String)
  /-- The one with this index among those that are compiled together. -/
  | together (index : Nat)
  deriving DecidableEq, Repr

/-- The wording of a fault. -/
def CompileFault.message : CompileFault → String
  | alone expression => "error parsing glob '" ++ expression ++ "': error parsing pattern 0"
  | together index => "error parsing pattern " ++ toString index

/-- What keeps patterns from being compiled. Those with an expression of their own come first. Only the
limit on how deep expressions nest is looked at here. The library that compiles them also has one on
the size of what they are compiled to, which this does not cover. -/
def compileFault? (gs : List Glob) : Option CompileFault :=
  match (gs.filter fun g => g.method = .alone).find? isTooDeep with
  | some g => some (.alone g.expression)
  | none =>
    ((gs.filter fun g => g.method = .together).findIdx? isTooDeep).map CompileFault.together

end Glob

end MigrationLint
