import PseudocodeLexer.Proofs.WordRuns

/-!
# Recognizing comments

A table that recognizes comments and one that does not differ where a comment stands, and nowhere
else: every other token is read by both (`nextToken?_without_comments`), and in place of the comment
the shorter table reads the operator of division (`nextToken?_divide_of_comment`). The two scans of a
line therefore agree up to the first comment. Behind it the scan that recognizes comments goes on as
if a line began there, since no comment ends in a word character with text behind it.
-/

namespace PseudocodeLexer

open Text

def Token.isComment (token : Token) : Prop :=
  token.tokenClass = .comment

/-- What is read in place of a comment where comments are not recognized. -/
def divideToken : Token :=
  ⟨.operator .divide, Operator.divide.symbol⟩

/-! ## Where comments are read -/

section

variable {afterWord : Bool} {token : Token} {rest : Text}

theorem not_isComment_wordToken (lexeme : Text) : ¬ (wordToken lexeme).isComment := by
  intro hcomment
  have hword := tokenClass_wordToken lexeme
  rw [hcomment] at hword
  exact absurd hword (by decide)

/-- A comment is read as one of the longer symbols, and only if comments are recognized. -/
theorem Reading.longerSymbol_of_isComment {comments : Bool}
    (h : Reading comments afterWord token rest) (hcomment : token.isComment) :
    comments = true ∧ LongerSymbol comments token.kind token.lexeme rest := by
  cases h with
  | longer hlonger =>
      refine ⟨?_, hlonger⟩
      cases hlonger with
      | block | line => rfl
      | assignment | comparison => cases hcomment
  | word => exact absurd hcomment (not_isComment_wordToken _)
  | number | stray | blanks | string | sign | mark => cases hcomment

theorem Readable.not_isComment {tokens : List Token}
    (h : Readable (Rule.table false) afterWord tokens) (hmem : token ∈ tokens) :
    ¬ token.isComment := by
  obtain ⟨behindWord, rest, hreads⟩ := h.exists_reads hmem
  intro hcomment
  exact Bool.noConfusion (hreads.reading.longerSymbol_of_isComment hcomment).1

/-- What follows a comment is read as if nothing came before it. -/
theorem Readable.behind_comment {comments : Bool} {tokens : List Token}
    (h : Readable (Rule.table comments) afterWord (token :: tokens)) (hcomment : token.isComment) :
    Readable (Rule.table comments) false tokens := by
  obtain ⟨hreads, hreadable⟩ := h
  have hlonger := (hreads.reading.longerSymbol_of_isComment hcomment).2
  rcases hlonger.not_endsWithWordChar with hend | hend
  · rwa [hend] at hreadable
  · cases tokens with
    | nil => trivial
    | cons next tokens =>
        exact absurd (List.append_eq_nil_iff.mp hend).1 hreadable.1.lexeme_ne_nil

end

/-! ## One step of both scans -/

section

variable {afterWord : Bool} {c : Char} {input : Text}

/-- Only behind a slash do comments make a difference. -/
theorem candidates_of_ne_slash (hc : c ≠ '/') :
    candidates (Rule.table false) afterWord c = candidates (Rule.table true) afterWord c := by
  have htable : Rule.table false = (Rule.table true).filter (· != .comment) := by decide
  rw [htable, candidates, candidates, List.filter_filter]
  apply List.filter_congr
  intro rule _
  cases rule with
  | comment => simp [Rule.opens, hc]
  | _ => simp

theorem nextToken?_of_ne_slash (hc : c ≠ '/') :
    nextToken? (Rule.table false) afterWord (c :: input)
      = nextToken? (Rule.table true) afterWord (c :: input) := by
  simp only [nextToken?, firstMatch?_cons, candidates_of_ne_slash hc]

/-- Without the rule for comments a slash is always an operator. -/
theorem nextToken?_slash :
    nextToken? (Rule.table false) afterWord ('/' :: input) = some (divideToken, input) :=
  nextToken?_sign .divide

/-- With it a slash is an operator or the first character of a comment. -/
theorem eq_divideToken_or_isComment {token : Token} {rest : Text}
    (h : nextToken? (Rule.table true) afterWord ('/' :: input) = some (token, rest)) :
    (token = divideToken ∧ rest = input) ∨ token.isComment := by
  have happend := (nextToken?_cut h).append
  have hsign : nextToken? (Rule.table true) afterWord ('/' :: input) = _ :=
    nextToken?_sign .divide
  rw [h] at hsign
  split at hsign
  · rename_i hfound
    cases hsign
    -- Of the longer symbols only comments begin with a slash.
    cases longerSymbol_of_findSome? hfound with
    | block | line => exact .inr rfl
    | assignment => cases happend
    | comparison _ comparison => cases comparison <;> cases happend
  · cases hsign
    exact .inl ⟨rfl, rfl⟩

/-- Every token that is no comment is read without the rule for comments as well. -/
theorem nextToken?_without_comments {input : Text} {token : Token} {rest : Text}
    (h : nextToken? (Rule.table true) afterWord input = some (token, rest))
    (hcomment : ¬ token.isComment) :
    nextToken? (Rule.table false) afterWord input = some (token, rest) := by
  cases input with
  | nil => cases h
  | cons c input =>
      by_cases hc : c = '/'
      · subst c
        rcases eq_divideToken_or_isComment h with ⟨rfl, rfl⟩ | hcomment'
        · exact nextToken?_slash
        · exact absurd hcomment' hcomment
      · rw [nextToken?_of_ne_slash hc, h]

/-- In place of a comment the operator of division is read. -/
theorem nextToken?_divide_of_comment {input : Text} {token : Token} {rest : Text}
    (h : nextToken? (Rule.table true) afterWord input = some (token, rest))
    (hcomment : token.isComment) :
    ∃ behind, nextToken? (Rule.table false) afterWord input = some (divideToken, behind) := by
  cases input with
  | nil => cases h
  | cons c input =>
      by_cases hc : c = '/'
      · subst c
        exact ⟨input, nextToken?_slash⟩
      · -- The comment would be read without the rule for comments.
        rw [← nextToken?_of_ne_slash hc] at h
        have hreading := reading_of_nextToken? h
        exact Bool.noConfusion (hreading.longerSymbol_of_isComment hcomment).1

end

/-! ## Whole lines -/

/-- Tokens without a comment are read off what they cover with or without the rule for comments. -/
theorem scanFrom_without_comments {afterWord : Bool} {tokens₁ tokens₂ : List Token}
    (h : Readable (Rule.table true) afterWord (tokens₁ ++ tokens₂))
    (hcomments : ∀ token ∈ tokens₁, ¬ token.isComment) :
    scanFrom (Rule.table false) afterWord (covered (tokens₁ ++ tokens₂))
      = tokens₁ ++ scanFrom (Rule.table false) (wordBehind afterWord (covered tokens₁))
          (covered tokens₂) := by
  induction tokens₁ generalizing afterWord with
  | nil => rfl
  | cons token tokens₁ ih =>
      rw [List.cons_append] at h
      obtain ⟨hreads, hreadable⟩ := h
      have hnext := nextToken?_without_comments hreads (hcomments token List.mem_cons_self)
      have hrest := ih hreadable fun token' hmem => hcomments token' (List.mem_cons_of_mem _ hmem)
      rw [List.cons_append, covered_cons, scanFrom_of_nextToken? hnext, hrest, covered_cons,
        wordBehind_append, wordBehind_of_ne_nil afterWord hreads.lexeme_ne_nil, List.cons_append]

/-- **Recognizing comments changes nothing in front of the first one.** Without the rule for
comments there are none; a line without comments is scanned alike by both tables; and of a line with
a comment both scans begin with the tokens in front of the first one, which are followed by the
operator of division in the one scan, and in the other by the comment and the scan of the text behind
it. -/
theorem scan_recognizing_comments (line : Text) :
    (∀ token ∈ scan (Rule.table false) line, ¬ token.isComment) ∧
    ((∀ token ∈ scan (Rule.table true) line, ¬ token.isComment) →
      scan (Rule.table false) line = scan (Rule.table true) line) ∧
    (∀ tokens comment tokens', scan (Rule.table true) line = tokens ++ comment :: tokens' →
      (∀ token ∈ tokens, ¬ token.isComment) → comment.isComment →
        tokens ++ [divideToken] <+: scan (Rule.table false) line ∧
        ∃ behind, covered tokens ++ comment.lexeme ++ behind = line ∧
          tokens' = scan (Rule.table true) behind) := by
  have hcovered := covered_scan (Rule.table true) line
  have hreadable := readable_scan (Rule.table true) line
  refine ⟨?_, ?_, ?_⟩
  · intro token hmem
    exact (readable_scan (Rule.table false) line).not_isComment hmem
  · intro hcomments
    rw [← List.append_nil (scan (Rule.table true) line)] at hreadable
    have hscan := scanFrom_without_comments hreadable hcomments
    rwa [List.append_nil, hcovered, covered_nil, scanFrom_nil, List.append_nil] at hscan
  · intro tokens comment tokens' hsplit hcomments hcomment
    rw [hsplit] at hcovered hreadable
    have hscan := scanFrom_without_comments hreadable hcomments
    have hsuffix := hreadable.suffix
    refine ⟨?_, covered tokens', ?_, (scanFrom_covered (hsuffix.behind_comment hcomment)).symm⟩
    · obtain ⟨behind, hnext⟩ := nextToken?_divide_of_comment hsuffix.1 hcomment
      rw [hcovered, covered_cons, scanFrom_of_nextToken? hnext] at hscan
      exact ⟨_, by rw [scan, hscan, List.append_assoc, List.singleton_append]⟩
    · rw [covered_append, covered_cons, ← List.append_assoc] at hcovered
      exact hcovered

/-- A block comment that is never closed leaves its signs, and a line comment may follow. -/
example : scan (Rule.table true) "/*//".toList
    = [divideToken, ⟨.operator .multiply, ['*']⟩, ⟨.comment .line, ['/', '/']⟩] := by
  decide +kernel

end PseudocodeLexer
