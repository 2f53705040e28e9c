import PseudocodeLexer.Comment
import PseudocodeLexer.Keyword.Control
import PseudocodeLexer.Keyword.DataType
import PseudocodeLexer.Keyword.InputOutput
import PseudocodeLexer.Symbol

/-!
# Kinds and classes

The kind of a token says what it is, down to the keyword concept or the symbol. Its class forgets
that detail and is what an editor maps to a style. Both sets are closed.
-/

namespace PseudocodeLexer

/-! ## Classes -/

inductive TokenClass where
  | controlKeyword
  | ioKeyword
  | typeKeyword
  | stringLiteral
  | numericLiteral
  | assignmentOperator
  | comparisonOperator
  | operator
  | punctuation
  | identifier
  | whitespace
  | comment
  | text
  deriving DecidableEq

namespace TokenClass

def all : List TokenClass :=
  [.controlKeyword, .ioKeyword, .typeKeyword, .stringLiteral, .numericLiteral,
   .assignmentOperator, .comparisonOperator, .operator, .punctuation, .identifier, .whitespace,
   .comment, .text]

def name : TokenClass → Text
  | .controlKeyword => "ControlKeyword".toList
  | .ioKeyword => "IoKeyword".toList
  | .typeKeyword => "TypeKeyword".toList
  | .stringLiteral => "StringLiteral".toList
  | .numericLiteral => "NumericLiteral".toList
  | .assignmentOperator => "AssignmentOperator".toList
  | .comparisonOperator => "ComparisonOperator".toList
  | .operator => "Operator".toList
  | .punctuation => "Punctuation".toList
  | .identifier => "Identifier".toList
  | .whitespace => "Whitespace".toList
  | .comment => "Comment".toList
  | .text => "Text".toList

/-- The name under which a class is shown and stored. -/
def label : TokenClass → Text
  | .controlKeyword => "control-keyword".toList
  | .ioKeyword => "io-keyword".toList
  | .typeKeyword => "type-keyword".toList
  | .stringLiteral => "string-literal".toList
  | .numericLiteral => "numeric-literal".toList
  | .assignmentOperator => "assignment-operator".toList
  | .comparisonOperator => "comparison-operator".toList
  | .operator => "operator".toList
  | .punctuation => "punctuation".toList
  | .identifier => "identifier".toList
  | .whitespace => "whitespace".toList
  | .comment => "comment".toList
  | .text => "text".toList

def choices : List (Text × TokenClass) :=
  all.map fun tokenClass => (tokenClass.label, tokenClass)

def ofLabel? (label : Text) : Option TokenClass :=
  choices.lookup label

/-- The dotted name by which editor themes know a class; blanks and plain text have none. -/
def scopeRoot? : TokenClass → Option Text
  | .controlKeyword => some "keyword.control".toList
  | .ioKeyword => some "support.function".toList
  | .typeKeyword => some "storage.type".toList
  | .stringLiteral => some "string.quoted.double".toList
  | .numericLiteral => some "constant.numeric".toList
  | .assignmentOperator => some "keyword.operator.assignment".toList
  | .comparisonOperator => some "keyword.operator.comparison".toList
  | .operator => some "keyword.operator".toList
  | .punctuation => some "punctuation.definition".toList
  | .identifier => some "variable.other".toList
  | .whitespace => none
  | .comment => some "comment".toList
  | .text => none

end TokenClass

/-! ## Kinds -/

inductive Kind where
  | control (keyword : ControlKeyword)
  | io (keyword : IoKeyword)
  | dataType (keyword : TypeKeyword)
  | string
  | number
  | assignment
  | comparison (relation : Comparison)
  | operator (sign : Operator)
  | punctuation (mark : Punctuation)
  | identifier
  | whitespace
  | comment (style : CommentStyle)
  /-- A character that no rule recognizes. -/
  | text
  deriving DecidableEq

namespace Kind

def all : List Kind :=
  ControlKeyword.all.map .control ++ IoKeyword.all.map .io ++ TypeKeyword.all.map .dataType
    ++ [.string, .number, .assignment]
    ++ Comparison.all.map .comparison ++ Operator.all.map .operator
    ++ Punctuation.all.map .punctuation
    ++ [.identifier, .whitespace]
    ++ CommentStyle.all.map .comment ++ [.text]

/-- The name of a family of kinds with that of its member in brackets. -/
def memberName (family : String) (member : Text) : Text :=
  family.toList ++ '(' :: (member ++ [')'])

def name : Kind → Text
  | .control keyword => memberName "ControlKeyword" keyword.name
  | .io keyword => memberName "IoKeyword" keyword.name
  | .dataType keyword => memberName "TypeKeyword" keyword.name
  | .string => "StringLiteral".toList
  | .number => "NumericLiteral".toList
  | .assignment => "Assignment".toList
  | .comparison relation => memberName "Comparison" relation.name
  | .operator sign => memberName "Operator" sign.name
  | .punctuation mark => memberName "Punctuation" mark.name
  | .identifier => "Identifier".toList
  | .whitespace => "Whitespace".toList
  | .comment style => memberName "Comment" style.name
  | .text => "Text".toList

def ofName? (name : Text) : Option Kind :=
  all.find? (·.name == name)

def tokenClass : Kind → TokenClass
  | .control _ => .controlKeyword
  | .io _ => .ioKeyword
  | .dataType _ => .typeKeyword
  | .string => .stringLiteral
  | .number => .numericLiteral
  | .assignment => .assignmentOperator
  | .comparison _ => .comparisonOperator
  | .operator _ => .operator
  | .punctuation _ => .punctuation
  | .identifier => .identifier
  | .whitespace => .whitespace
  | .comment _ => .comment
  | .text => .text

end Kind

end PseudocodeLexer
