import PseudocodeLexer.Text.Quoted
import PseudocodeLexer.Token.Basic

/-!
# Rules

A rule recognizes one sort of token at the start of a text. Word rules are anchored: they are tried
only where no word character comes before, so a token never begins inside a word. A table lists the
rules in the order in which they are tried.

Every rule cuts a lexeme that is not empty off its input (`Rule.recognize?_cut`).
-/

namespace PseudocodeLexer

open Text

inductive Rule where
  | controlKeyword
  | ioKeyword
  | typeKeyword
  | string
  | comment
  | number
  | assignment
  | comparison
  | operator
  | punctuation
  | identifier
  | whitespace
  deriving DecidableEq

namespace Rule

def name : Rule → Text
  | .controlKeyword => "control keyword".toList
  | .ioKeyword => "io keyword".toList
  | .typeKeyword => "type keyword".toList
  | .string => "string".toList
  | .comment => "comment".toList
  | .number => "number".toList
  | .assignment => "assignment".toList
  | .comparison => "comparison".toList
  | .operator => "operator".toList
  | .punctuation => "punctuation".toList
  | .identifier => "identifier".toList
  | .whitespace => "whitespace".toList

/-- Whether the rule is tried only where no word character comes before. -/
def wordAnchored : Rule → Bool
  | .controlKeyword | .ioKeyword | .typeKeyword | .number | .identifier => true
  | _ => false

def ofKind (kind : Kind) (split : Text × Text) : Kind × Text × Text :=
  (kind, split.1, split.2)

/-- What the rule finds at the start of the input: the kind, the lexeme and the rest. -/
def recognize? : Rule → Text → Option (Kind × Text × Text)
  | .controlKeyword, input =>
      (ControlKeyword.vocabulary.keyword? input).map fun (k, split) => ofKind (.control k) split
  | .ioKeyword, input =>
      (IoKeyword.vocabulary.keyword? input).map fun (k, split) => ofKind (.io k) split
  | .typeKeyword, input =>
      (TypeKeyword.vocabulary.keyword? input).map fun (k, split) => ofKind (.dataType k) split
  | .string, input => (StringLiteral.recognize? input).map (ofKind .string)
  | .comment, input =>
      (CommentStyle.recognize? input).map fun (s, split) => ofKind (.comment s) split
  | .number, input => (NumericLiteral.recognize? input).map (ofKind .number)
  | .assignment, input => (assignment? input).map (ofKind .assignment)
  | .comparison, input =>
      (Comparison.recognize? input).map fun (c, split) => ofKind (.comparison c) split
  | .operator, input =>
      (Operator.recognize? input).map fun (o, split) => ofKind (.operator o) split
  | .punctuation, input =>
      (Punctuation.recognize? input).map fun (p, split) => ofKind (.punctuation p) split
  | .identifier, input => (identifier? input).map (ofKind .identifier)
  | .whitespace, input => (blanks? input).map (ofKind .whitespace)

/-- What the rule finds, given whether a word character comes before the input. -/
def attempt? (afterWord : Bool) (input : Text) (rule : Rule) : Option (Kind × Text × Text) :=
  if rule.wordAnchored && afterWord then none else rule.recognize? input

/-! ## The table -/

/-- The rules without the one for comments, which are no part of the language unless asked for. -/
def base : List Rule :=
  [.controlKeyword, .ioKeyword, .typeKeyword, .string, .number, .assignment, .comparison,
   .operator, .punctuation, .identifier, .whitespace]

/-- The rule table. Comments, when recognized, are tried right after strings and so before every
operator. -/
def table (comments : Bool) : List Rule :=
  base.flatMap fun rule =>
    if comments && rule == .string then [.string, .comment] else [rule]

def describe (rule : Rule) : Text :=
  "Rule \x7b name: ".toList ++ quoted rule.name ++ ", word_anchored: ".toList
    ++ (if rule.wordAnchored then "true".toList else "false".toList) ++ " \x7d".toList

def describeTable (rules : List Rule) : Text :=
  "Tokenizer \x7b rules: [".toList ++ ", ".toList.intercalate (rules.map describe)
    ++ "] \x7d".toList

/-! ## What a rule takes -/

private theorem cut_of_map {α : Type} {found : Option (α × Text × Text)} {make : α → Kind}
    {input : Text} {kind : Kind} {lexeme rest : Text}
    (hcut : ∀ a lexeme rest, found = some (a, lexeme, rest) → Cut input lexeme rest)
    (h : found.map (fun (a, split) => ofKind (make a) split) = some (kind, lexeme, rest)) :
    Cut input lexeme rest := by
  obtain ⟨⟨a, piece, after⟩, hfound, hsplit⟩ := Option.map_eq_some_iff.mp h
  simp only [ofKind, Prod.mk.injEq] at hsplit
  obtain ⟨-, rfl, rfl⟩ := hsplit
  exact hcut a piece after hfound

private theorem cut_of_map_ofKind {found : Option (Text × Text)} {kind' : Kind}
    {input : Text} {kind : Kind} {lexeme rest : Text}
    (hcut : ∀ lexeme rest, found = some (lexeme, rest) → Cut input lexeme rest)
    (h : found.map (ofKind kind') = some (kind, lexeme, rest)) : Cut input lexeme rest := by
  obtain ⟨⟨piece, after⟩, hfound, hsplit⟩ := Option.map_eq_some_iff.mp h
  simp only [ofKind, Prod.mk.injEq] at hsplit
  obtain ⟨-, rfl, rfl⟩ := hsplit
  exact hcut piece after hfound

/-- Every rule cuts a lexeme that is not empty off its input. -/
theorem recognize?_cut {rule : Rule} {input : Text} {kind : Kind} {lexeme rest : Text}
    (h : rule.recognize? input = some (kind, lexeme, rest)) : Cut input lexeme rest := by
  cases rule with
  | controlKeyword => exact cut_of_map (fun _ _ _ => Vocabulary.keyword?_cut (by decide)) h
  | ioKeyword => exact cut_of_map (fun _ _ _ => Vocabulary.keyword?_cut (by decide)) h
  | typeKeyword => exact cut_of_map (fun _ _ _ => Vocabulary.keyword?_cut (by decide)) h
  | string => exact cut_of_map_ofKind (fun _ _ => StringLiteral.recognize?_cut) h
  | comment => exact cut_of_map (fun _ _ _ => CommentStyle.recognize?_cut) h
  | number => exact cut_of_map_ofKind (fun _ _ => NumericLiteral.recognize?_cut) h
  | assignment => exact cut_of_map_ofKind (fun _ _ => assignment?_cut) h
  | comparison => exact cut_of_map (fun _ _ _ => Comparison.recognize?_cut) h
  | operator => exact cut_of_map (fun _ _ _ => Operator.recognize?_cut) h
  | punctuation => exact cut_of_map (fun _ _ _ => Punctuation.recognize?_cut) h
  | identifier => exact cut_of_map_ofKind (fun _ _ => identifier?_cut) h
  | whitespace => exact cut_of_map_ofKind (fun _ _ => blanks?_cut) h

theorem attempt?_cut {afterWord : Bool} {rule : Rule} {input : Text} {kind : Kind}
    {lexeme rest : Text} (h : rule.attempt? afterWord input = some (kind, lexeme, rest)) :
    Cut input lexeme rest := by
  unfold attempt? at h
  split at h
  · simp at h
  · exact recognize?_cut h

end Rule

end PseudocodeLexer
