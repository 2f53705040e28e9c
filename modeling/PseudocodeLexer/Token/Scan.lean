import PseudocodeLexer.Token.Rule

/-!
# Scanning a line

At each place of a line the rules are tried in the order of the table, and the first that recognizes
something gives the next token. A character that no rule recognizes is a token of its own, so every
line can be scanned. Only the character before the place matters to what comes next: word rules
wait until it is no word character.
-/

namespace PseudocodeLexer

open Text

/-- What the first rule to recognize anything finds. -/
def firstMatch? (rules : List Rule) (afterWord : Bool) (input : Text) :
    Option (Kind × Text × Text) :=
  rules.findSome? (Rule.attempt? afterWord input)

theorem firstMatch?_cut {rules : List Rule} {afterWord : Bool} {input : Text} {kind : Kind}
    {lexeme rest : Text} (h : firstMatch? rules afterWord input = some (kind, lexeme, rest)) :
    Cut input lexeme rest := by
  obtain ⟨rule, -, hrule⟩ := List.exists_of_findSome?_eq_some h
  exact Rule.attempt?_cut hrule

def endsWithWordChar (t : Text) : Bool :=
  t.getLast?.any isWordChar

/-- Scans what is left of a line, given whether a word character comes before it. -/
def scanFrom (rules : List Rule) (afterWord : Bool) (input : Text) : List Token :=
  match input with
  | [] => []
  | c :: rest =>
      match h : firstMatch? rules afterWord (c :: rest) with
      | some (kind, lexeme, after) =>
          have : after.length < (c :: rest).length := (firstMatch?_cut h).length_lt
          ⟨kind, lexeme⟩ :: scanFrom rules (endsWithWordChar lexeme) after
      | none => ⟨.text, [c]⟩ :: scanFrom rules (isWordChar c) rest
termination_by input.length
decreasing_by
  · exact this
  · exact Nat.lt_succ_self _

/-- The tokens of one line, whose lexemes make up the line. -/
def scan (rules : List Rule) (line : Text) : List Token :=
  scanFrom rules false line

end PseudocodeLexer
