import Mathlib.Data.List.Forall2
import PseudocodeLexer.Proofs.Phrases
import PseudocodeLexer.Proofs.Stops

/-!
# Texts that differ in pieces of one sort

`ExchangedText` relates two texts if the second comes from the first by putting pieces of one sort
in the place of others. The pieces of a sort begin alike, with a character by which no token in
front of them goes on, and they hold no quote, backslash or star (`PieceSort`). So almost nothing
that a token asks of the text behind it can tell the two texts apart: not where words, blanks,
digits and identifiers begin and end, nor whether a quote or a comment is closed. What can is a
phrase, of which a piece may be a part. A token is therefore read in front of both texts or of
neither, as long as no second word of a phrase comes to stand there (`Reads.exchanged`).
-/

namespace PseudocodeLexer

open Text

/-- No search for a closing mark could stop at the character. -/
def isPlain (c : Char) : Bool :=
  c != '"' && c != '\\' && c != '*'

theorem ne_of_isPlain {c : Char} (h : isPlain c = true) : c ≠ '"' ∧ c ≠ '\\' ∧ c ≠ '*' := by
  simpa [isPlain, and_assoc] using h

/-- A token that ends in front of the character might have gone on with it. -/
def goesOn (c : Char) : Bool :=
  c.isDigit || ['\'', '.', '-', '=', '/', '*'].contains c

/-- No character by which a token goes on passes a test that neither digits nor the marks pass. -/
theorem eq_false_of_goesOn {p : Char → Bool} (hdigit : ∀ c, c.isDigit = true → p c = false)
    (hmarks : ['\'', '.', '-', '=', '/', '*'].all (!p ·) = true) {c : Char}
    (hc : goesOn c = true) : p c = false := by
  rcases Bool.or_eq_true_iff.mp hc with hc | hmark
  · exact hdigit c hc
  · simpa using List.all_eq_true.mp hmarks c (List.contains_iff_mem.mp hmark)

/-- A sort of pieces that look alike to whatever stands in front of them. -/
structure PieceSort where
  IsPiece : Text → Prop
  /-- Whether a piece can begin with the character. -/
  opens : Char → Bool
  exists_cons {piece : Text} : IsPiece piece → ∃ c tail, piece = c :: tail ∧ opens c = true
  isPlain {piece : Text} : IsPiece piece → piece.all isPlain = true
  isWordChar_eq {c d : Char} : opens c = true → opens d = true → isWordChar c = isWordChar d
  isBlank_eq {c d : Char} : opens c = true → opens d = true → isBlank c = isBlank d
  not_opens {c : Char} : goesOn c = true → opens c = false

/-- No piece begins with a character of a run by which a token goes on. -/
theorem PieceSort.eq_false_of_opens {sort : PieceSort} {p : Char → Bool} {c : Char}
    (hp : ∀ c, p c = true → goesOn c = true) (hc : sort.opens c = true) : p c = false := by
  cases hpc : p c with
  | false => rfl
  | true =>
      rw [sort.not_opens (hp c hpc)] at hc
      exact Bool.noConfusion hc

/-- The second text is the first with some pieces exchanged for others of their sort. -/
inductive ExchangedText (sort : PieceSort) : Text → Text → Prop where
  | nil : ExchangedText sort [] []
  | cons (c : Char) {s t : Text} : ExchangedText sort s t → ExchangedText sort (c :: s) (c :: t)
  | piece {old new s t : Text} : sort.IsPiece old → sort.IsPiece new → ExchangedText sort s t →
      ExchangedText sort (old ++ s) (new ++ t)

namespace ExchangedText

variable {sort : PieceSort} {s t : Text}

theorem symm (h : ExchangedText sort s t) : ExchangedText sort t s := by
  induction h with
  | nil => exact .nil
  | cons c _ ih => exact .cons c ih
  | piece hold hnew _ ih => exact .piece hnew hold ih

theorem append_left (h : ExchangedText sort s t) (u : Text) :
    ExchangedText sort (u ++ s) (u ++ t) := by
  induction u with
  | nil => exact h
  | cons c u ih => exact .cons c ih

/-! ## First characters -/

theorem eq_nil (h : ExchangedText sort [] t) : t = [] := by
  generalize hs : ([] : Text) = s at h
  cases h with
  | nil => rfl
  | cons => cases hs
  | piece hold =>
      obtain ⟨c, tail, rfl, -⟩ := sort.exists_cons hold
      cases hs

/-- A first character that begins no piece is the same in both texts. -/
theorem exists_eq_cons {c : Char} (hc : sort.opens c = false)
    (h : ExchangedText sort (c :: s) t) : ∃ t', t = c :: t' ∧ ExchangedText sort s t' := by
  generalize hs : c :: s = u at h
  cases h with
  | nil => cases hs
  | cons _ hrest =>
      cases hs
      exact ⟨_, rfl, hrest⟩
  | piece hold =>
      obtain ⟨d, tail, rfl, hd⟩ := sort.exists_cons hold
      obtain ⟨rfl, -⟩ := List.cons.inj hs
      rw [hc] at hd
      exact Bool.noConfusion hd

/-- A beginning in which no piece begins is the same in both texts. -/
theorem exists_eq_append {u : Text} (hu : ∀ c ∈ u, sort.opens c = false)
    (h : ExchangedText sort (u ++ s) t) : ∃ t', t = u ++ t' ∧ ExchangedText sort s t' := by
  induction u generalizing t with
  | nil => exact ⟨t, rfl, h⟩
  | cons c u ih =>
      obtain ⟨t, rfl, hrest⟩ := exists_eq_cons (hu c List.mem_cons_self) h
      obtain ⟨t', rfl, hrest'⟩ := ih (fun d hd => hu d (List.mem_cons_of_mem _ hd)) hrest
      exact ⟨t', rfl, hrest'⟩

/-- Where the texts begin with different characters, both begin with a piece. -/
theorem head_eq_or {c d : Char} (h : ExchangedText sort (c :: s) (d :: t)) :
    c = d ∨ (sort.opens c = true ∧ sort.opens d = true) := by
  cases hc : sort.opens c with
  | false =>
      obtain ⟨_, heq, -⟩ := exists_eq_cons hc h
      exact .inl (List.cons.inj heq).1.symm
  | true =>
      cases hd : sort.opens d with
      | true => exact .inr ⟨rfl, rfl⟩
      | false =>
          obtain ⟨_, heq, -⟩ := exists_eq_cons hd h.symm
          exact .inl (List.cons.inj heq).1

/-- No test that gives the same answer on all first characters of pieces tells the texts apart. -/
theorem head?_any_eq {p : Char → Bool}
    (hp : ∀ c d, sort.opens c = true → sort.opens d = true → p c = p d)
    (h : ExchangedText sort s t) : s.head?.any p = t.head?.any p := by
  cases s with
  | nil => rw [eq_nil h]
  | cons c s =>
      cases t with
      | nil => cases eq_nil h.symm
      | cons d t =>
          rcases head_eq_or h with rfl | ⟨hc, hd⟩
          · rfl
          · simp only [List.head?_cons, Option.any_some, hp c d hc hd]

theorem startsWithWordChar_eq (h : ExchangedText sort s t) :
    startsWithWordChar s = startsWithWordChar t := by
  have hhead (u : Text) : startsWithWordChar u = u.head?.any isWordChar := by cases u <;> rfl
  rw [hhead, hhead]
  exact head?_any_eq (fun _ _ => sort.isWordChar_eq) h

theorem startsWithBlank_eq (h : ExchangedText sort s t) :
    startsWithBlank s = startsWithBlank t := by
  have hhead (u : Text) : startsWithBlank u = u.head?.any isBlank := by cases u <;> rfl
  rw [hhead, hhead]
  exact head?_any_eq (fun _ _ => sort.isBlank_eq) h

/-! ## Runs of characters that begin no piece -/

section

variable {p : Char → Bool}

theorem dropWhile (hp : ∀ c, p c = true → goesOn c = true) (h : ExchangedText sort s t) :
    ExchangedText sort (s.dropWhile p) (t.dropWhile p) := by
  induction h with
  | nil => exact .nil
  | @cons c s t hrest ih =>
      cases hc : p c with
      | true => rwa [List.dropWhile_cons_of_pos hc, List.dropWhile_cons_of_pos hc]
      | false =>
          rw [List.dropWhile_cons_of_neg (by simp [hc]), List.dropWhile_cons_of_neg (by simp [hc])]
          exact .cons c hrest
  | @piece old new s t hold hnew hrest _ =>
      -- The run ends where the piece begins, whichever it is.
      have hstop {piece u : Text} (hpiece : sort.IsPiece piece) :
          (piece ++ u).dropWhile p = piece ++ u := by
        obtain ⟨c, tail, rfl, hc⟩ := sort.exists_cons hpiece
        rw [List.cons_append,
          List.dropWhile_cons_of_neg (by simp [PieceSort.eq_false_of_opens hp hc])]
      rw [hstop hold, hstop hnew]
      exact .piece hold hnew hrest

theorem takeWhile_eq (hp : ∀ c, p c = true → goesOn c = true) (h : ExchangedText sort s t) :
    s.takeWhile p = t.takeWhile p := by
  induction h with
  | nil => rfl
  | @cons c s t hrest ih =>
      cases hc : p c with
      | true => rw [List.takeWhile_cons_of_pos hc, List.takeWhile_cons_of_pos hc, ih]
      | false =>
          rw [List.takeWhile_cons_of_neg (by simp [hc]), List.takeWhile_cons_of_neg (by simp [hc])]
  | piece hold hnew _ _ =>
      have hstop {piece u : Text} (hpiece : sort.IsPiece piece) :
          (piece ++ u).takeWhile p = [] := by
        obtain ⟨c, tail, rfl, hc⟩ := sort.exists_cons hpiece
        rw [List.cons_append,
          List.takeWhile_cons_of_neg (by simp [PieceSort.eq_false_of_opens hp hc])]
      rw [hstop hold, hstop hnew]

end

theorem endsIdentifier (h : ExchangedText sort s t) (hs : EndsIdentifier s) : EndsIdentifier t := by
  unfold EndsIdentifier at hs ⊢
  have hdrop := h.dropWhile (p := (· == '\'')) fun c hc => by
    obtain rfl : c = '\'' := beq_iff_eq.mp hc
    rfl
  rwa [← hdrop.startsWithWordChar_eq]

theorem goesOn_of_isDigit (c : Char) (h : c.isDigit = true) : goesOn c = true := by
  simp [goesOn, h]

theorem startsWithWordChar_dropWhile_isDigit (h : ExchangedText sort s t) :
    startsWithWordChar (s.dropWhile Char.isDigit) = startsWithWordChar (t.dropWhile Char.isDigit) :=
  (h.dropWhile goesOn_of_isDigit).startsWithWordChar_eq

theorem fractionFits (h : ExchangedText sort s t) (hs : NumericLiteral.FractionFits s) :
    NumericLiteral.FractionFits t := by
  obtain ⟨fraction, after, hfraction, hafter⟩ := hs
  obtain ⟨digits, hdigits, rfl, rfl, hend⟩ := NumericLiteral.fraction?_eq_some_iff.mp hfraction
  obtain ⟨t, rfl, hrest⟩ := exists_eq_cons (sort.not_opens rfl) h
  have htake := hrest.takeWhile_eq goesOn_of_isDigit
  have hdrop := hrest.dropWhile goesOn_of_isDigit
  rw [NumericLiteral.takeWhile_digits_append hdigits.isDigit hend] at htake
  rw [NumericLiteral.dropWhile_digits_append hdigits.isDigit hend] at hdrop
  have hsplit : digits ++ t.dropWhile Char.isDigit = t := by
    rw [htake]
    exact List.takeWhile_append_dropWhile
  refine ⟨_, t.dropWhile Char.isDigit, NumericLiteral.fraction?_eq_some_iff.mpr
    ⟨digits, hdigits, rfl, by rw [hsplit], NumericLiteral.takeWhile_dropWhile_isDigit t⟩, ?_⟩
  rw [← hdrop.startsWithWordChar_eq, hafter]

/-! ## Quotes -/

private theorem closes_cons {c : Char} (hquote : c ≠ '"') (hbackslash : c ≠ '\\') (u : Text) :
    (StringLiteral.throughClosingQuote? (c :: u)).isSome
      = (StringLiteral.throughClosingQuote? u).isSome := by
  rw [StringLiteral.throughClosingQuote?_cons hquote hbackslash, Option.isSome_map]

private theorem closes_escape (c : Char) (u : Text) :
    (StringLiteral.throughClosingQuote? ('\\' :: c :: u)).isSome
      = (StringLiteral.throughClosingQuote? u).isSome := by
  rw [StringLiteral.throughClosingQuote?_escape, Option.isSome_map]

private theorem closes_append {piece : Text} (hpiece : piece.all isPlain = true) (u : Text) :
    (StringLiteral.throughClosingQuote? (piece ++ u)).isSome
      = (StringLiteral.throughClosingQuote? u).isSome := by
  induction piece with
  | nil => rfl
  | cons c piece ih =>
      rw [List.all_cons, Bool.and_eq_true] at hpiece
      obtain ⟨hquote, hbackslash, -⟩ := ne_of_isPlain hpiece.1
      rw [List.cons_append, closes_cons hquote hbackslash]
      exact ih hpiece.2

/-- A quote is closed in both texts or in neither, also behind a backslash, which takes the first
character of a piece with it. -/
private theorem closes_eq_and_escaped (h : ExchangedText sort s t) :
    (StringLiteral.throughClosingQuote? s).isSome
        = (StringLiteral.throughClosingQuote? t).isSome ∧
      (StringLiteral.throughClosingQuote? ('\\' :: s)).isSome
        = (StringLiteral.throughClosingQuote? ('\\' :: t)).isSome := by
  induction h with
  | nil => exact ⟨rfl, rfl⟩
  | @cons c s t _ ih =>
      refine ⟨?_, by rw [closes_escape, closes_escape, ih.1]⟩
      by_cases hquote : c = '"'
      · subst c
        rfl
      · by_cases hbackslash : c = '\\'
        · subst c
          exact ih.2
        · rw [closes_cons hquote hbackslash, closes_cons hquote hbackslash, ih.1]
  | @piece old new s t hold hnew _ ih =>
      constructor
      · rw [closes_append (sort.isPlain hold), closes_append (sort.isPlain hnew), ih.1]
      · -- The backslash takes the first character of the piece, and the others close nothing.
        have hescaped {piece : Text} (hpiece : sort.IsPiece piece) (u : Text) :
            (StringLiteral.throughClosingQuote? ('\\' :: (piece ++ u))).isSome
              = (StringLiteral.throughClosingQuote? u).isSome := by
          have htail := sort.isPlain hpiece
          obtain ⟨c, tail, rfl, -⟩ := sort.exists_cons hpiece
          rw [List.all_cons, Bool.and_eq_true] at htail
          rw [List.cons_append, closes_escape]
          exact closes_append htail.2 u
        rw [hescaped hold, hescaped hnew, ih.1]

theorem throughClosingQuote?_eq_none (h : ExchangedText sort s t)
    (hs : StringLiteral.throughClosingQuote? s = none) :
    StringLiteral.throughClosingQuote? t = none := by
  have hsame := h.closes_eq_and_escaped.1
  rw [hs] at hsame
  exact Option.isNone_iff_eq_none.mp (by simpa using hsame.symm)

/-! ## Comments and other longer symbols -/

private theorem closesBlock_cons {c : Char} {u : Text} (h : c = '*' → ∀ v, u ≠ '/' :: v) :
    (throughBlockClose? (c :: u)).isSome = (throughBlockClose? u).isSome := by
  rw [throughBlockClose?]
  · cases throughBlockClose? u <;> rfl
  · exact fun v hc heq => h hc v heq

private theorem closesBlock_append {piece : Text} (hpiece : piece.all isPlain = true) (u : Text) :
    (throughBlockClose? (piece ++ u)).isSome = (throughBlockClose? u).isSome := by
  induction piece with
  | nil => rfl
  | cons c piece ih =>
      rw [List.all_cons, Bool.and_eq_true] at hpiece
      obtain ⟨-, -, hstar⟩ := ne_of_isPlain hpiece.1
      rw [List.cons_append, closesBlock_cons fun hc => absurd hc hstar]
      exact ih hpiece.2

/-- A comment is closed in both texts or in neither. -/
theorem closesBlock_eq (h : ExchangedText sort s t) :
    (throughBlockClose? s).isSome = (throughBlockClose? t).isSome := by
  induction h with
  | nil => rfl
  | @cons c s t hrest ih =>
      by_cases hmark : c = '*' ∧ ∃ v, s = '/' :: v
      · -- No piece begins with a slash, so the mark stands in both texts.
        obtain ⟨rfl, v, rfl⟩ := hmark
        obtain ⟨t, rfl, -⟩ := exists_eq_cons (sort.not_opens rfl) hrest
        rfl
      · have hmark' : c = '*' → ∀ v, t ≠ '/' :: v := by
          rintro rfl v rfl
          obtain ⟨s, rfl, -⟩ := exists_eq_cons (sort.not_opens rfl) hrest.symm
          exact hmark ⟨rfl, s, rfl⟩
        rw [closesBlock_cons fun hc v heq => hmark ⟨hc, v, heq⟩, closesBlock_cons hmark', ih]
  | @piece old new s t hold hnew _ ih =>
      rw [closesBlock_append (sort.isPlain hold), closesBlock_append (sort.isPlain hnew), ih]

/-- What is longer than the sign in front of one text is so in front of the other. -/
theorem longerStands {comments : Bool} {c : Char} (h : ExchangedText sort s t)
    (hs : LongerStands comments (c :: s)) : LongerStands comments (c :: t) := by
  obtain ⟨kind, symbol, rest, hlonger, heq⟩ := hs
  cases hlonger with
  | assignment =>
      obtain ⟨rfl, rfl⟩ := List.cons.inj heq
      obtain ⟨t, rfl, -⟩ := exists_eq_cons (sort.not_opens rfl) h
      exact ⟨_, _, t, .assignment comments t, rfl⟩
  | comparison _ comparison =>
      have hsymbol : comparison.symbol = [c, '='] ∧ s = '=' :: rest := by
        cases comparison <;> cases heq <;> exact ⟨rfl, rfl⟩
      obtain ⟨hsymbol, rfl⟩ := hsymbol
      obtain ⟨t, rfl, -⟩ := exists_eq_cons (sort.not_opens rfl) h
      exact ⟨_, _, t, .comparison comments comparison t, by rw [hsymbol]; rfl⟩
  | block body _ hclose =>
      obtain ⟨rfl, rfl⟩ := List.cons.inj heq
      obtain ⟨t, rfl, hrest⟩ := exists_eq_cons (sort.not_opens rfl) h
      have hsame := hrest.closesBlock_eq
      rw [List.append_eq, hclose, Option.isSome_some] at hsame
      obtain ⟨⟨body', rest'⟩, hclose'⟩ := Option.isSome_iff_exists.mp hsame.symm
      have happend := throughBlockClose?_append hclose'
      rw [← happend] at hclose'
      exact ⟨_, _, rest', .block body' rest' hclose', by rw [← happend]; rfl⟩
  | line body =>
      obtain ⟨rfl, rfl⟩ := List.cons.inj heq
      obtain ⟨t, rfl, -⟩ := exists_eq_cons (sort.not_opens rfl) h
      exact ⟨_, _, [], .line t, by simp⟩

end ExchangedText

/-! ## Where tokens stop -/

section

variable {sort : PieceSort} {s t lexeme : Text}

/-- Only a phrase that is completed behind a word keeps it from stopping there. -/
theorem WordStops.exchanged (hword : lexeme ∈ keywordWords ∨ IsIdentifier lexeme)
    (htext : ExchangedText sort s t)
    (hphrase : ∀ name ∈ phraseTails, standsAt (' ' :: name) t = true →
      standsAt (' ' :: name) s = true)
    (h : WordStops lexeme s) : WordStops lexeme t := by
  have hend : startsWithWordChar t = false := by
    rw [← htext.startsWithWordChar_eq, h.wordEnd]
  refine ⟨hend, ?_, fun hnew => htext.endsIdentifier (h.identifierEnd hnew)⟩
  intro hgoesOn
  obtain ⟨name, hname, hmem, hstands⟩ := hgoesOn.exists_phraseTail hword hend
  exact h.phraseEnd ⟨' ' :: name, List.cons_ne_nil _ _, hmem, hphrase name hname hstands⟩

theorem NumberStops.exchanged (h : NumberStops lexeme s) (htext : ExchangedText sort s t) :
    NumberStops lexeme t where
  wordEnd := by rw [← htext.startsWithWordChar_eq, h.wordEnd]
  fractionEnd := fun hpoint hfits => h.fractionEnd hpoint (htext.symm.fractionFits hfits)

theorem TextStops.exchanged {afterWord : Bool} (h : TextStops afterWord lexeme s)
    (htext : ExchangedText sort s t) : TextStops afterWord lexeme t where
  unclosed := fun hquote => htext.throughClosingQuote?_eq_none (h.unclosed hquote)
  intoWord := fun hafter c hc hdigit => by
    rw [← htext.startsWithWordChar_dropWhile_isDigit, h.intoWord hafter c hc hdigit]

variable {comments afterWord : Bool} {token : Token}

/-- A token stops in front of both texts or of neither, save that a word may become the beginning of
a phrase. -/
theorem Stops.exchanged
    (hword : token.tokenClass ∈ TokenClass.words → WordStops token.lexeme s →
      WordStops token.lexeme t)
    (htext : ExchangedText sort s t) (h : Stops comments afterWord token s) :
    Stops comments afterWord token t := by
  refine h.imp hword ?_ ?_ ?_ ?_ ?_
  · intro hnumber
    exact hnumber.exchanged htext
  · intro hblank
    rw [← htext.startsWithBlank_eq, hblank]
  · intro sign hlonger
    exact htext.symm.longerStands hlonger
  · rintro rfl
    exact htext.eq_nil
  · intro hstops
    exact hstops.exchanged htext

/-- A token that is read in front of the first text is read in front of the second, unless that
completes a phrase. -/
theorem Reads.exchanged (hreads : Reads (Rule.table comments) afterWord token s)
    (htext : ExchangedText sort s t)
    (hphrase : ∀ name ∈ phraseTails, standsAt (' ' :: name) t = true →
      standsAt (' ' :: name) s = true) :
    Reads (Rule.table comments) afterWord token t := by
  refine (reads_iff_stops hreads).mpr (hreads.stops.exchanged ?_ htext)
  intro hclass hstops
  have hword := (hreads.reading.wordLexeme? hclass).2
  exact hstops.exchanged (mem_or_isIdentifier_of_wordLexeme? hword) htext hphrase

end

/-! ## Readable lists -/

section

variable {comments afterWord : Bool} {tokens tokens' : List Token} {R : Token → Token → Prop}

/-- Tokens that are exchanged one for one cover texts that differ in pieces. -/
theorem ExchangedText.of_readable {sort : PieceSort}
    (hR : ∀ {afterWord token token' rest s t}, Reads (Rule.table comments) afterWord token rest →
      R token token' → ExchangedText sort s t →
        ExchangedText sort (token.lexeme ++ s) (token'.lexeme ++ t))
    (h : Readable (Rule.table comments) afterWord tokens)
    (hexchanged : List.Forall₂ R tokens tokens') :
    ExchangedText sort (covered tokens) (covered tokens') := by
  induction hexchanged generalizing afterWord with
  | nil => exact .nil
  | cons htoken _ ih =>
      obtain ⟨hreads, hreadable⟩ := h
      exact hR hreads htoken (ih hreadable)

/-- Tokens that are exchanged one for one are readable if each is read in its place. -/
theorem Readable.exchanged {rules : List Rule}
    (hR : ∀ {afterWord token token' tokens tokens'}, Readable rules afterWord (token :: tokens) →
      R token token' → List.Forall₂ R tokens tokens' →
        Reads rules afterWord token' (covered tokens') ∧
          endsWithWordChar token'.lexeme = endsWithWordChar token.lexeme)
    (h : Readable rules afterWord tokens) (hexchanged : List.Forall₂ R tokens tokens') :
    Readable rules afterWord tokens' := by
  induction hexchanged generalizing afterWord with
  | nil => trivial
  | cons htoken hrest ih =>
      obtain ⟨hreads, hend⟩ := hR h htoken hrest
      refine ⟨hreads, ?_⟩
      rw [hend]
      exact ih h.2

end

end PseudocodeLexer
