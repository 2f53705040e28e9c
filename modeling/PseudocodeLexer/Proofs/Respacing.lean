import PseudocodeLexer.Proofs.Blanks
import PseudocodeLexer.Proofs.ExchangedText

/-!
# Lines with other blanks

Each run of blanks between the tokens of a line can be put in another way, and the line scans to the
same tokens with those blanks in place (`scan_respaced`). Blanks look alike to whatever stands in
front of them (`blankPieces`), be it a quote that is never closed or the signs of an unclosed
comment. The one run that matters is the single space, since the phrases of the vocabularies are
written with it: it may stay where it is, but must not come in place of another run
(`standsAt_of_respaced`).
-/

namespace PseudocodeLexer

open Text

/-- The second token is the first, or a run of blanks other than a single space in place of
another run. -/
inductive Respaced : Token → Token → Prop where
  | same (token : Token) : Respaced token token
  | blanks (old : Text) {new : Text} : IsBlankRun new → new ≠ [' '] →
      Respaced ⟨.whitespace, old⟩ ⟨.whitespace, new⟩

/-- No token that ends in front of a blank could have gone on with it, and blanks close nothing. -/
def blankPieces : PieceSort where
  IsPiece := IsBlankRun
  opens := isBlank
  exists_cons hrun := hrun.exists_cons
  isPlain {run} hrun := by
    rw [List.all_eq_true]
    intro c hc
    have hblank := hrun.isBlank c hc
    have hquote : c ≠ '"' := ne_of_isBlank hblank (by decide)
    have hbackslash : c ≠ '\\' := ne_of_isBlank hblank (by decide)
    have hstar : c ≠ '*' := ne_of_isBlank hblank (by decide)
    simp [isPlain, hquote, hbackslash, hstar]
  isWordChar_eq hc hd := by
    rw [not_isWordChar_of_isBlank hc, not_isWordChar_of_isBlank hd]
  isBlank_eq hc hd := by rw [hc, hd]
  not_opens hc := by
    apply eq_false_of_goesOn _ (by decide) hc
    intro d hdigit
    exact not_isBlank_of_isWordChar (isWordChar_of_isDigit hdigit)

section

variable {comments afterWord : Bool} {token token' : Token} {tokens tokens' : List Token}

theorem Respaced.exchangedText {rest s t : Text} (h : Respaced token token')
    (hreads : Reads (Rule.table comments) afterWord token rest)
    (htext : ExchangedText blankPieces s t) :
    ExchangedText blankPieces (token.lexeme ++ s) (token'.lexeme ++ t) := by
  cases h with
  | same => exact htext.append_left _
  | blanks old hnew => exact .piece (hreads.isBlankRun rfl) hnew htext

theorem Readable.respacedText (h : Readable (Rule.table comments) afterWord tokens)
    (hrespaced : List.Forall₂ Respaced tokens tokens') :
    ExchangedText blankPieces (covered tokens) (covered tokens') :=
  .of_readable (fun hreads htoken => htoken.exchangedText hreads) h hrespaced

theorem Respaced.endsWithWordChar_eq {rest : Text} (h : Respaced token token')
    (hreads : Reads (Rule.table comments) afterWord token rest) :
    endsWithWordChar token'.lexeme = endsWithWordChar token.lexeme := by
  cases h with
  | same => rfl
  | blanks old hnew =>
      rw [hnew.not_endsWithWordChar, (hreads.isBlankRun rfl).not_endsWithWordChar]

/-- A token that begins with a space, and with no other blank behind that, is the space, and it was
there before. -/
theorem Respaced.eq_spaceToken {rest t u : Text} {d : Char} (h : Respaced token token')
    (hreads : Reads (Rule.table comments) afterWord token rest) (hd : isBlank d = false)
    (happend : token'.lexeme ++ t = ' ' :: d :: u) : token = spaceToken ∧ t = d :: u := by
  have hspace (run : Text) (hrun : IsBlankRun run) (heq : run ++ t = ' ' :: d :: u) :
      run = [' '] ∧ t = d :: u := by
    obtain ⟨c, tail, rfl, -⟩ := hrun.exists_cons
    obtain ⟨rfl, htail⟩ := List.cons.inj heq
    cases tail with
    | nil => exact ⟨rfl, htail⟩
    | cons e tail =>
        have he := hrun.isBlank e (by simp)
        exact absurd (List.cons.inj htail).1 (ne_of_isBlank he hd)
  cases h with
  | same =>
      obtain ⟨kind, lexeme⟩ := token
      have hstart : startsWithBlank lexeme = true := by
        cases lexeme with
        | nil => exact absurd rfl hreads.lexeme_ne_nil
        | cons c lexeme =>
            obtain ⟨rfl, -⟩ := List.cons.inj happend
            rfl
      obtain rfl : kind = .whitespace := hreads.kind_eq_whitespace_iff.mpr hstart
      obtain ⟨rfl, ht⟩ := hspace lexeme (hreads.isBlankRun rfl) happend
      exact ⟨rfl, ht⟩
  | blanks old hnew hne => exact absurd (hspace _ hnew happend).1 hne

/-- Other blanks complete no phrase. -/
theorem standsAt_of_respaced {name : Text} (hname : name ∈ phraseTails)
    (h : Readable (Rule.table comments) afterWord tokens)
    (hrespaced : List.Forall₂ Respaced tokens tokens')
    (hstands : standsAt (' ' :: name) (covered tokens') = true) :
    standsAt (' ' :: name) (covered tokens) = true := by
  have hidentifier := isIdentifier_of_mem_phraseTails hname
  have hblank := hidentifier.not_isBlank
  obtain ⟨d, tail, hcons, -⟩ := hidentifier.start
  obtain ⟨after, happend, hafter⟩ := standsAt_iff.mp hstands
  cases hrespaced with
  | nil => cases happend
  | @cons token token' tokens tokens' htoken hrest =>
      obtain ⟨hreads, hreadable⟩ := h
      -- The space is a token of its own, and what stands behind it was there before.
      have hspace : token'.lexeme ++ covered tokens' = ' ' :: d :: (tail ++ after) := by
        rw [← covered_cons, ← happend, hcons]
        rfl
      have hd : isBlank d = false := hblank d (by rw [hcons]; exact List.mem_cons_self)
      obtain ⟨rfl, hcovered⟩ := htoken.eq_spaceToken hreads hd hspace
      have htext := (hreadable.respacedText hrest).symm
      rw [hcovered, ← List.cons_append, ← hcons] at htext
      obtain ⟨after', hbehind, hexchanged⟩ := htext.exists_eq_append hblank
      refine standsAt_iff.mpr ⟨after', by rw [covered_cons, hbehind]; rfl, ?_⟩
      rw [← hexchanged.startsWithWordChar_eq, hafter]

/-- Every token is read in its place when blanks are put in other ways. -/
theorem Reads.respaced (hreads : Reads (Rule.table comments) afterWord token (covered tokens))
    (htoken : Respaced token token')
    (h : Readable (Rule.table comments) (endsWithWordChar token.lexeme) tokens)
    (hrespaced : List.Forall₂ Respaced tokens tokens') :
    Reads (Rule.table comments) afterWord token' (covered tokens') := by
  have htext := h.respacedText hrespaced
  cases htoken with
  | same =>
      exact hreads.exchanged htext fun _ hname => standsAt_of_respaced hname h hrespaced
  | blanks old hnew =>
      have hstops : startsWithBlank (covered tokens) = false := hreads.stops
      apply reads_blankRun hnew
      rw [← htext.startsWithBlank_eq, hstops]

theorem Readable.respaced (h : Readable (Rule.table comments) afterWord tokens)
    (hrespaced : List.Forall₂ Respaced tokens tokens') :
    Readable (Rule.table comments) afterWord tokens' := by
  refine h.exchanged ?_ hrespaced
  intro _ _ _ _ _ hreadable htoken hrest
  exact ⟨hreadable.1.respaced htoken hreadable.2 hrest, htoken.endsWithWordChar_eq hreadable.1⟩

end

/-- **Other blanks change no other token.** If runs of blanks of a scanned line are put in other
ways, none of them as a single space, the line that results scans to the same tokens with those
blanks. In no line do two runs of blanks stand side by side. -/
theorem scan_respaced (comments : Bool) (line : Text) :
    (∀ tokens, List.Forall₂ Respaced (scan (Rule.table comments) line) tokens →
      scan (Rule.table comments) (covered tokens) = tokens) ∧
    (scan (Rule.table comments) line).IsChain
      fun token next => token.kind = .whitespace → next.kind ≠ .whitespace := by
  have hreadable := readable_scan (Rule.table comments) line
  constructor
  · intro tokens hrespaced
    exact scanFrom_covered (hreadable.respaced hrespaced)
  · exact hreadable.isChain_whitespace

/-- Behind a backslash and a quote that is never closed two spaces take the place of one. -/
theorem scan_respaced_unclosed :
    scan (Rule.table true)
        (covered [⟨.text, ['"']⟩, ⟨.text, ['\\']⟩, ⟨.whitespace, [' ', ' ']⟩, ⟨.identifier, ['x']⟩])
      = [⟨.text, ['"']⟩, ⟨.text, ['\\']⟩, ⟨.whitespace, [' ', ' ']⟩, ⟨.identifier, ['x']⟩] := by
  refine (scan_respaced true ['"', '\\', ' ', 'x']).1 _ ?_
  have hscan : scan (Rule.table true) ['"', '\\', ' ', 'x']
      = [⟨.text, ['"']⟩, ⟨.text, ['\\']⟩, ⟨.whitespace, [' ']⟩, ⟨.identifier, ['x']⟩] := by
    decide +kernel
  have hnew : IsBlankRun [' ', ' '] := isBlankRun_spaces 1
  rw [hscan]
  exact .cons (.same _) (.cons (.same _) (.cons (.blanks _ hnew (by decide))
    (.cons (.same _) .nil)))

/-- A single space in place of the tab would make one keyword of the two identifiers. -/
example : (scan (Rule.table false) "Tant\tque".toList).map Token.kind
      = [.identifier, .whitespace, .identifier] ∧
    (scan (Rule.table false) "Tant que".toList).map Token.kind = [.control .whileLoop] := by
  decide +kernel

end PseudocodeLexer
