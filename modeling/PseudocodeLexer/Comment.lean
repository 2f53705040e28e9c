import PseudocodeLexer.Text.Basic

/-!
# Comments

A line comment runs from two slashes to the end of the line. A block comment runs to the first
closing mark behind its opening mark, on the same line; without a closing mark there is no block
comment. The opening mark shares no character with the closing mark.
-/

namespace PseudocodeLexer

open Text

inductive CommentStyle where
  | line
  | block
  deriving DecidableEq

namespace CommentStyle

def all : List CommentStyle :=
  [.line, .block]

def name : CommentStyle → Text
  | .line => "Line".toList
  | .block => "Block".toList

def label : CommentStyle → Text
  | .line => "line".toList
  | .block => "block".toList

def choices : List (Text × CommentStyle) :=
  all.map fun style => (style.label, style)

end CommentStyle

/-- Splits off the shortest initial stretch that ends in the closing mark. -/
def throughBlockClose? : Text → Option (Text × Text)
  | [] => none
  | '*' :: '/' :: rest => some (['*', '/'], rest)
  | c :: rest =>
      match throughBlockClose? rest with
      | none => none
      | some (body, after) => some (c :: body, after)

theorem throughBlockClose?_append {input body after : Text}
    (h : throughBlockClose? input = some (body, after)) : body ++ after = input := by
  fun_induction throughBlockClose? input generalizing body with
  | case1 => simp at h
  | case2 rest =>
      simp only [Option.some.injEq, Prod.mk.injEq] at h
      obtain ⟨rfl, rfl⟩ := h
      rfl
  | case3 => simp at h
  | case4 c rest _ b a hrest ih =>
      simp only [Option.some.injEq, Prod.mk.injEq] at h
      obtain ⟨rfl, rfl⟩ := h
      simp [ih hrest]

def lineComment? : Text → Option (Text × Text)
  | '/' :: '/' :: rest => some ('/' :: '/' :: rest, [])
  | _ => none

def blockComment? : Text → Option (Text × Text)
  | '/' :: '*' :: rest =>
      match throughBlockClose? rest with
      | none => none
      | some (body, after) => some ('/' :: '*' :: body, after)
  | _ => none

theorem lineComment?_cut {input comment rest : Text}
    (h : lineComment? input = some (comment, rest)) : Cut input comment rest := by
  unfold lineComment? at h
  split at h
  · simp only [Option.some.injEq, Prod.mk.injEq] at h
    obtain ⟨rfl, rfl⟩ := h
    exact ⟨by simp, by simp⟩
  · simp at h

theorem blockComment?_cut {input comment rest : Text}
    (h : blockComment? input = some (comment, rest)) : Cut input comment rest := by
  unfold blockComment? at h
  split at h
  · split at h
    · simp at h
    · rename_i hclose
      simp only [Option.some.injEq, Prod.mk.injEq] at h
      obtain ⟨rfl, rfl⟩ := h
      exact ⟨by simp [throughBlockClose?_append hclose], by simp⟩
  · simp at h

/-- A comment of either style at the start of the input, its text and the rest. -/
def CommentStyle.recognize? (input : Text) : Option (CommentStyle × Text × Text) :=
  match blockComment? input with
  | some (comment, rest) => some (.block, comment, rest)
  | none =>
      match lineComment? input with
      | some (comment, rest) => some (.line, comment, rest)
      | none => none

theorem CommentStyle.recognize?_cut {input comment rest : Text} {style : CommentStyle}
    (h : recognize? input = some (style, comment, rest)) : Cut input comment rest := by
  unfold recognize? at h
  split at h
  · rename_i hblock
    simp only [Option.some.injEq, Prod.mk.injEq] at h
    obtain ⟨-, rfl, rfl⟩ := h
    exact blockComment?_cut hblock
  · split at h
    · rename_i hline
      simp only [Option.some.injEq, Prod.mk.injEq] at h
      obtain ⟨-, rfl, rfl⟩ := h
      exact lineComment?_cut hline
    · simp at h

end PseudocodeLexer
