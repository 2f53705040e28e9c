import PseudocodeLexer.Proofs.Stops

/-!
# Runs of blanks

Blanks are taken together. A token that begins with a blank consists of blanks
(`Reads.kind_eq_whitespace_iff`, `Reads.isBlankRun`), and any run of blanks is read as one token
where no other blank comes behind it (`reads_blankRun`). So two such tokens never stand side by side
(`Readable.isChain_whitespace`).
-/

namespace PseudocodeLexer

open Text

theorem startsWithBlank_append {s t : Text} (hs : s ≠ []) :
    startsWithBlank (s ++ t) = startsWithBlank s := by
  cases s with
  | nil => exact absurd rfl hs
  | cons c s => rfl

theorem ne_of_isBlank {c d : Char} (hc : isBlank c = true) (hd : isBlank d = false) : c ≠ d := by
  rintro rfl
  rw [hc] at hd
  exact Bool.noConfusion hd

/-- Blanks, at least one of them. -/
structure IsBlankRun (run : Text) : Prop where
  isBlank : ∀ c ∈ run, isBlank c = true
  ne_nil : run ≠ []

/-- The token that a single space is read as. -/
def spaceToken : Token :=
  ⟨.whitespace, [' ']⟩

theorem isBlankRun_spaces (n : Nat) : IsBlankRun (List.replicate (n + 1) ' ') where
  isBlank c hc := by
    obtain rfl := List.eq_of_mem_replicate hc
    decide
  ne_nil := List.cons_ne_nil _ _

theorem isBlankRun_space : IsBlankRun [' '] :=
  isBlankRun_spaces 0

theorem IsBlankRun.exists_cons {run : Text} (h : IsBlankRun run) :
    ∃ c tail, run = c :: tail ∧ Text.isBlank c = true := by
  cases run with
  | nil => exact absurd rfl h.ne_nil
  | cons c tail => exact ⟨c, tail, rfl, h.isBlank c List.mem_cons_self⟩

theorem IsBlankRun.startsWithBlank_append {run : Text} (h : IsBlankRun run) (rest : Text) :
    startsWithBlank (run ++ rest) = true := by
  obtain ⟨c, tail, rfl, hc⟩ := h.exists_cons
  exact hc

theorem IsBlankRun.not_endsWithWordChar {run : Text} (h : IsBlankRun run) :
    endsWithWordChar run = false := by
  unfold endsWithWordChar
  rw [List.getLast?_eq_some_getLast h.ne_nil, Option.any_some]
  exact not_isWordChar_of_isBlank (h.isBlank _ (List.getLast_mem h.ne_nil))

theorem IsIdentifier.not_isBlank {lexeme : Text} (h : IsIdentifier lexeme) :
    ∀ c ∈ lexeme, isBlank c = false := by
  intro c hc
  rcases Bool.or_eq_true_iff.mp (h.continues c hc) with hword | happostrophe
  · exact not_isBlank_of_isWordChar hword
  · obtain rfl : c = '\'' := beq_iff_eq.mp happostrophe
    decide

section

variable {comments afterWord : Bool} {token : Token} {rest : Text}

theorem Reading.isBlankRun (h : Reading comments afterWord token rest)
    (hkind : token.kind = .whitespace) : IsBlankRun token.lexeme := by
  cases h with
  | blanks hne hblank => exact ⟨hblank, hne⟩
  | @word lexeme =>
      have hword := tokenClass_wordToken lexeme
      unfold Token.tokenClass at hword
      rw [hkind] at hword
      exact absurd hword (by decide)
  | longer hlonger => cases hlonger <;> cases hkind
  | number | stray | string | sign | mark => cases hkind

theorem Reads.isBlankRun (h : Reads (Rule.table comments) afterWord token rest)
    (hkind : token.kind = .whitespace) : IsBlankRun token.lexeme :=
  h.reading.isBlankRun hkind

/-- The tokens that begin with a blank are the runs of blanks. -/
theorem Reads.kind_eq_whitespace_iff (h : Reads (Rule.table comments) afterWord token rest) :
    token.kind = .whitespace ↔ startsWithBlank token.lexeme = true := by
  constructor
  · intro hkind
    have hstart := (h.isBlankRun hkind).startsWithBlank_append []
    rwa [List.append_nil] at hstart
  · intro hstart
    cases hlexeme : token.lexeme with
    | nil => exact absurd hlexeme h.lexeme_ne_nil
    | cons c lexeme =>
        rw [hlexeme] at hstart
        unfold Reads at h
        rw [hlexeme, List.cons_append, nextToken?_blank hstart] at h
        obtain ⟨rfl, -⟩ := Prod.mk.inj (Option.some.inj h)
        rfl

/-- A run of blanks is read where no other blank comes behind it. -/
theorem reads_blankRun {run : Text} (hrun : IsBlankRun run)
    (hrest : startsWithBlank rest = false) :
    Reads (Rule.table comments) afterWord ⟨.whitespace, run⟩ rest := by
  obtain ⟨c, tail, rfl, hc⟩ := hrun.exists_cons
  have htail : ∀ d ∈ tail, isBlank d = true := (List.forall_mem_cons.mp hrun.isBlank).2
  have hnone := takeWhile_isBlank_eq_nil_iff.mpr hrest
  have hsplit : rest.takeWhile isBlank ++ rest.dropWhile isBlank = rest :=
    List.takeWhile_append_dropWhile
  rw [hnone, List.nil_append] at hsplit
  unfold Reads
  rw [List.cons_append, nextToken?_blank hc, List.takeWhile_append_of_pos htail,
    List.dropWhile_append_of_pos htail, hnone, hsplit, List.append_nil]

/-- Between two runs of blanks there is something else. -/
theorem Readable.isChain_whitespace {tokens : List Token}
    (h : Readable (Rule.table comments) afterWord tokens) :
    tokens.IsChain fun token next => token.kind = .whitespace → next.kind ≠ .whitespace := by
  induction tokens generalizing afterWord with
  | nil => exact .nil
  | cons token tokens ih =>
      obtain ⟨hreads, hreadable⟩ := h
      cases tokens with
      | nil => exact .singleton token
      | cons next tokens =>
          refine .cons_cons ?_ (ih hreadable)
          intro htoken hnext
          -- The run would have gone on with the blanks behind it.
          have hstops := hreads.stops
          unfold Stops at hstops
          rw [htoken] at hstops
          have hstart := (hreadable.1.isBlankRun hnext).startsWithBlank_append (covered tokens)
          rw [covered_cons, hstart] at hstops
          exact Bool.noConfusion hstops

end

end PseudocodeLexer
