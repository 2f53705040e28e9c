import PseudocodeLexer.Proofs.Comments
import PseudocodeLexer.Proofs.Stops

/-!
# The marks of comments

The text that the search for the closing mark of a block comment takes ends in the mark and holds no
other (`endsInOnlyClose_of_throughBlockClose?`), and the search fails exactly if the mark occurs
nowhere (`throughBlockClose?_eq_none_iff`). So where a token begins with a slash, the text there
tells what it is: a comment of either style wherever one can stand, and the operator of division
only where no second slash follows and no star behind which a comment would be closed
(`scan_comment_marks`).
-/

namespace PseudocodeLexer

open Text

/-- The text ends in the closing mark of block comments, which occurs nowhere else in it. -/
structure EndsInOnlyClose (body : Text) : Prop where
  suffix : ['*', '/'] <:+ body
  only : ∀ before behind, body = before ++ '*' :: '/' :: behind → behind = []

/-! ## The search for the closing mark -/

section

variable {input body after : Text}

/-- The search fails only where there is nothing to find. -/
theorem throughBlockClose?_eq_none_iff :
    throughBlockClose? input = none ↔ ¬ ['*', '/'] <:+: input := by
  fun_induction throughBlockClose? input with
  | case1 => simp
  | case2 rest =>
      have hmark : ['*', '/'] <+: '*' :: '/' :: rest := List.prefix_append ['*', '/'] rest
      simp [hmark.isInfix]
  | case3 c rest hmark hrest ih =>
      refine iff_of_true rfl ?_
      intro hinfix
      rcases List.infix_cons_iff.mp hinfix with hprefix | hinfix
      · -- The mark does not stand here, or it would have been found.
        obtain ⟨behind, hbehind⟩ := hprefix
        obtain ⟨rfl, rfl⟩ := List.cons.inj hbehind
        exact hmark behind rfl rfl
      · exact ih.mp hrest hinfix
  | case4 c rest hmark b a hrest ih =>
      refine iff_of_false (by simp) (not_not_intro ?_)
      have hinfix : ['*', '/'] <:+: rest := by
        by_contra hnone
        rw [ih.mpr hnone] at hrest
        cases hrest
      exact List.infix_cons hinfix

theorem exists_throughBlockClose? (h : ['*', '/'] <:+: input) :
    ∃ body after, throughBlockClose? input = some (body, after) := by
  cases hclose : throughBlockClose? input with
  | none => exact absurd h (throughBlockClose?_eq_none_iff.mp hclose)
  | some found => exact ⟨found.1, found.2, rfl⟩

theorem endsInOnlyClose_of_throughBlockClose? (h : throughBlockClose? input = some (body, after)) :
    EndsInOnlyClose body := by
  have hbody := throughBlockClose?_body h
  have honly : ∀ before behind, body = before ++ '*' :: '/' :: behind → behind = [] := by
    intro before behind heq
    -- The first part already closes, so the search would leave what is behind it.
    have hinfix : ['*', '/'] <:+: before ++ ['*', '/'] := ⟨before, [], by simp⟩
    obtain ⟨b, a, hfirst⟩ := exists_throughBlockClose? hinfix
    have hwhole := throughBlockClose?_append_right behind hfirst
    rw [List.append_assoc, List.cons_append, List.singleton_append, ← heq, hbody] at hwhole
    obtain ⟨-, hrest⟩ := Prod.mk.inj (Option.some.inj hwhole)
    exact (List.append_eq_nil_iff.mp hrest.symm).2
  refine ⟨?_, honly⟩
  have hinfix : ['*', '/'] <:+: body := by
    by_contra hnone
    rw [throughBlockClose?_eq_none_iff.mpr hnone] at hbody
    cases hbody
  obtain ⟨before, behind, heq⟩ := hinfix
  have hbehind : behind = [] := honly before behind (by rw [← heq, List.append_assoc]; rfl)
  rw [hbehind, List.append_nil] at heq
  exact ⟨before, heq⟩

end

/-! ## What stands at a slash -/

/-- Nothing longer than a slash begins with it if neither a comment to the end of the line nor one
that is closed on it can begin there. -/
theorem not_longerStands_slash_iff {rest : Text} :
    ¬ LongerStands true ('/' :: rest) ↔
      rest.head? ≠ some '/' ∧ ∀ after, rest = '*' :: after → ¬ ['*', '/'] <:+: after := by
  constructor
  · intro hshort
    constructor
    · intro hhead
      obtain ⟨body, rfl⟩ := List.head?_eq_some_iff.mp hhead
      exact hshort ⟨_, _, [], .line body, by simp⟩
    · rintro after rfl hinfix
      obtain ⟨body, behind, hclose⟩ := exists_throughBlockClose? hinfix
      have happend := throughBlockClose?_append hclose
      rw [← happend] at hclose
      exact hshort ⟨_, _, behind, .block body behind hclose, by rw [← happend]; rfl⟩
  · rintro ⟨hline, hblock⟩ ⟨kind, lexeme, behind, hlonger, heq⟩
    cases hlonger with
    | line body =>
        obtain ⟨-, rfl⟩ := List.cons.inj heq
        exact hline rfl
    | block body _ hclose =>
        obtain ⟨-, rfl⟩ := List.cons.inj heq
        refine hblock (body ++ behind) rfl ?_
        by_contra hnone
        rw [throughBlockClose?_eq_none_iff.mpr hnone] at hclose
        cases hclose
    | assignment => cases heq
    | comparison _ comparison => cases comparison <;> cases heq

section

variable {afterWord : Bool} {token : Token} {rest : Text}

theorem isComment_of_kind {style : CommentStyle} (hkind : token.kind = .comment style) :
    token.isComment := by
  rw [Token.isComment, Token.tokenClass, hkind]
  rfl

theorem Reading.block_lexeme (h : Reading true afterWord token rest)
    (hkind : token.kind = .comment .block) :
    ∃ body, token.lexeme = '/' :: '*' :: body ∧ EndsInOnlyClose body := by
  obtain ⟨-, hlonger⟩ := h.longerSymbol_of_isComment (isComment_of_kind hkind)
  rw [hkind] at hlonger
  generalize token.lexeme = lexeme at hlonger
  cases hlonger with
  | block body _ hclose => exact ⟨body, rfl, endsInOnlyClose_of_throughBlockClose? hclose⟩

theorem Reading.line_lexeme (h : Reading true afterWord token rest)
    (hkind : token.kind = .comment .line) :
    (∃ body, token.lexeme = '/' :: '/' :: body) ∧ rest = [] := by
  obtain ⟨-, hlonger⟩ := h.longerSymbol_of_isComment (isComment_of_kind hkind)
  rw [hkind] at hlonger
  generalize token.lexeme = lexeme at hlonger
  cases hlonger with
  | line body => exact ⟨⟨body, rfl⟩, rfl⟩

theorem Reads.divide_rest (h : Reads (Rule.table true) afterWord token rest)
    (hkind : token.kind = .operator .divide) :
    rest.head? ≠ some '/' ∧ ∀ after, rest = '*' :: after → ¬ ['*', '/'] <:+: after := by
  have hstops := h.stops
  unfold Stops at hstops
  rw [hkind] at hstops
  exact not_longerStands_slash_iff.mp hstops

/-- A token that begins with a slash is the operator of division or a comment. -/
theorem Reads.eq_divideToken_or_isComment (h : Reads (Rule.table true) afterWord token rest)
    (hslash : token.lexeme.head? = some '/') : token = divideToken ∨ token.isComment := by
  obtain ⟨lexeme, hlexeme⟩ := List.head?_eq_some_iff.mp hslash
  unfold Reads at h
  rw [hlexeme, List.cons_append] at h
  rcases PseudocodeLexer.eq_divideToken_or_isComment h with ⟨hdivide, -⟩ | hcomment
  · exact .inl hdivide
  · exact .inr hcomment

end

/-- **Comments are recognized exactly.** With the rule for comments, every token of a line that
begins with a slash is the operator of division or a comment. A block comment stands between its
marks, and behind the opening mark the closing mark occurs at the very end only. A line comment
begins with two slashes and is the last token. The operator of division has no slash right behind
it, and a star only if the closing mark does not occur behind the star. -/
theorem scan_comment_marks {line : Text} {before behind : List Token} {token : Token}
    (h : scan (Rule.table true) line = before ++ token :: behind) :
    (token.lexeme.head? = some '/' → token = divideToken ∨ token.isComment) ∧
    (token.kind = .comment .block →
      ∃ body, token.lexeme = '/' :: '*' :: body ∧ EndsInOnlyClose body) ∧
    (token.kind = .comment .line → ['/', '/'] <+: token.lexeme ∧ behind = []) ∧
    (token.kind = .operator .divide →
      (covered behind).head? ≠ some '/' ∧
      ∀ after, covered behind = '*' :: after → ¬ ['*', '/'] <:+: after) := by
  have hreadable := readable_scan (Rule.table true) line
  rw [h] at hreadable
  have hreads := hreadable.reads
  refine ⟨?_, ?_, ?_, ?_⟩
  · intro hslash
    exact hreads.eq_divideToken_or_isComment hslash
  · intro hkind
    exact hreads.reading.block_lexeme hkind
  · intro hkind
    obtain ⟨⟨body, hlexeme⟩, hrest⟩ := hreads.reading.line_lexeme hkind
    constructor
    · rw [hlexeme]
      exact List.prefix_append ['/', '/'] body
    · -- A token behind the comment would cover something.
      cases behind with
      | nil => rfl
      | cons next behind =>
          have hmem : next ∈ before ++ token :: next :: behind := by simp
          have hnext : next.lexeme ≠ [] := hreadable.lexeme_ne_nil hmem
          exact absurd (List.append_eq_nil_iff.mp hrest).1 hnext
  · intro hkind
    exact hreads.divide_rest hkind

/-- A slash that opens no block comment, behind one that does and in front of a line comment. -/
theorem scan_comment_marks_unclosed :
    scan (Rule.table true) "/*/*/ /* //".toList
        = [⟨.comment .block, "/*/*/".toList⟩, ⟨.whitespace, [' ']⟩] ++ divideToken ::
          [⟨.operator .multiply, ['*']⟩, ⟨.whitespace, [' ']⟩, ⟨.comment .line, ['/', '/']⟩] ∧
      ¬ ['*', '/'] <:+: [' ', '/', '/'] := by
  have hscan : scan (Rule.table true) "/*/*/ /* //".toList
      = [⟨.comment .block, "/*/*/".toList⟩, ⟨.whitespace, [' ']⟩] ++ divideToken ::
        [⟨.operator .multiply, ['*']⟩, ⟨.whitespace, [' ']⟩, ⟨.comment .line, ['/', '/']⟩] := by
    decide +kernel
  obtain ⟨-, -, -, hdivide⟩ := scan_comment_marks hscan
  exact ⟨hscan, (hdivide rfl).2 _ rfl⟩

end PseudocodeLexer
