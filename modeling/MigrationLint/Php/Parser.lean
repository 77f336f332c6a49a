import MigrationLint.Php.Fault

/-!
# Syntax trees of PHP files

The syntax tree of a PHP file keeps the named nodes of its concrete tree. Comments and empty
statements are left out, a block contributes its statements in place, and a method or function
keeps only the statements of its body.
-/

namespace MigrationLint.Php

/-- The kinds of nodes that declare something like a class. -/
def classKinds : List String :=
  ["class_declaration", "interface_declaration", "trait_declaration", "enum_declaration",
    "anonymous_class"]

/-- The kinds of nodes that leave nothing in the tree. -/
def ignoredKinds : List String :=
  ["comment", "empty_statement"]

/-- The kind of a block of statements. -/
def blockKind : String :=
  "compound_statement"

/-- Comments aside, a throw expression is the only named node of the forest. -/
def isBareThrow (children : List Cst) : Bool :=
  match children.filter fun c => c.label.named && c.label.kind != "comment" with
  | [c] => c.label.kind == "throw_expression"
  | _ => false

/-- What a concrete node stands for, given what is below it. -/
def kindOf (label : Label) (children : List Cst) : Kind :=
  if label.kind = "method_declaration" then .method
  else if label.kind = "function_definition" then .function
  else if label.kind = "throw_statement" then .throw
  else if label.kind = "expression_statement" ∧ isBareThrow children then .throw
  else if label.kind ∈ classKinds then .classLike
  else .other label.kind

/-- The node of this kind is a declaration with a name. -/
def declares : Kind → Bool
  | .method | .function | .classLike => true
  | _ => false

/-- The node of this kind keeps only what its body holds. -/
def keepsBody : Kind → Bool
  | .method | .function => true
  | _ => false

/-- The name that a declaration gives, as the text of its name node. -/
def nameOf? (source : List Char) (children : List Cst) : Option String := do
  let c ← Cst.withField? "name" children
  let text ← Utf8.slice? source c.label.first c.label.last
  return String.ofList text

mutual

/-- The nodes that a concrete tree contributes to the syntax tree. -/
def nodesOf (source : List Char) : Cst → List Node
  | ⟨label, children⟩ =>
    if !label.named || label.kind ∈ ignoredKinds then []
    else if label.kind = blockKind then nodesOfAll source children
    else
      let kind := kindOf label children
      [{ kind
         name := if declares kind then nameOf? source children else none
         line := label.row + 1
         children :=
           if keepsBody kind then nodesOfBody source children else nodesOfAll source children }]

/-- The nodes that a forest contributes. -/
def nodesOfAll (source : List Char) : List Cst → List Node
  | [] => []
  | c :: cs => nodesOf source c ++ nodesOfAll source cs

/-- The nodes below the first tree with the role of a body. -/
def nodesOfBody (source : List Char) : List Cst → List Node
  | [] => []
  | ⟨label, children⟩ :: cs =>
    if label.field = some "body" then nodesOfAll source children else nodesOfBody source cs

end

/-- The syntax tree of a text, given its concrete tree. -/
def treeOf (source : List Char) (root : Cst) : Except Fault Tree :=
  if root.label.hasError then
    match root.firstFault? with
    | some label => .error (.ofLabel source label)
    | none => .error .unlocated
  else .ok ⟨nodesOfAll source root.children⟩

/-- The syntax tree of a text. -/
def parse (grammar : Grammar) (source : String) : Except Fault Tree :=
  match grammar source with
  | none => .error .noTree
  | some root => treeOf source.toList root

/-- The source parser for PHP. The path does not matter. -/
def parser (grammar : Grammar) : SourceParser :=
  fun _ source => (parse grammar source).mapError Fault.toParseError

end MigrationLint.Php
