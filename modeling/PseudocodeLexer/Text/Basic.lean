/-!
# Text

A text is the list of its characters. Columns count characters, which is the length of the list;
offsets count bytes of the UTF-8 encoding, which is `Text.utf8Length`.
-/

namespace PseudocodeLexer

abbrev Text := List Char

namespace Text

/-- Number of bytes of the UTF-8 encoding. -/
def utf8Length : Text → Nat
  | [] => 0
  | c :: rest => c.utf8Size + utf8Length rest

@[simp]
theorem utf8Length_nil : utf8Length [] = 0 := rfl

@[simp]
theorem utf8Length_cons (c : Char) (rest : Text) :
    utf8Length (c :: rest) = c.utf8Size + utf8Length rest := rfl

@[simp]
theorem utf8Length_append (s t : Text) :
    utf8Length (s ++ t) = utf8Length s + utf8Length t := by
  induction s with
  | nil => simp
  | cons c s ih => simp [ih, Nat.add_assoc]

/-- A text is cut into a piece, which is not empty, and the rest behind it. -/
structure Cut (input piece rest : Text) : Prop where
  append : piece ++ rest = input
  ne_nil : piece ≠ []

theorem Cut.length_lt {input piece rest : Text} (h : Cut input piece rest) :
    rest.length < input.length := by
  have hpos := List.length_pos_iff.mpr h.ne_nil
  rw [← h.append, List.length_append]
  omega

/-- A number written in decimal digits. -/
def decimal (n : Nat) : Text :=
  Nat.toDigits 10 n

end Text

end PseudocodeLexer
