import PseudocodeLexer.NumericLiteral
import PseudocodeLexer.StringLiteral
import PseudocodeLexer.Token.Kind

/-!
# Tokens

A token is a kind together with the text it covers. Its editor scope follows from the kind and a
suffix that names the language; a string or numeric literal has a value besides.
-/

namespace PseudocodeLexer

structure Token where
  kind : Kind
  lexeme : Text
  deriving DecidableEq

namespace Token

def tokenClass (token : Token) : TokenClass :=
  token.kind.tokenClass

/-- The scope of a kind without the language suffix: comments are told apart by their style. -/
def scopeStem? : Kind → Option Text
  | .comment .line => some "comment.line.double-slash".toList
  | .comment .block => some "comment.block".toList
  | kind => kind.tokenClass.scopeRoot?

/-- The dotted scope name, which ends in the suffix unless that is empty. Blanks and unclassified
characters are plain text in every language. -/
def scope (suffix : Text) (token : Token) : Text :=
  match scopeStem? token.kind with
  | none => "text".toList
  | some stem => if suffix = [] then stem else stem ++ '.' :: suffix

def stringValue? (token : Token) : Option Text :=
  match token.kind with
  | .string => some (StringLiteral.value token.lexeme)
  | _ => none

def numberValue? (token : Token) : Option Binary64 :=
  match token.kind with
  | .number => NumericLiteral.value? token.lexeme
  | _ => none

end Token

end PseudocodeLexer
