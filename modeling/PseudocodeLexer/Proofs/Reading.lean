import PseudocodeLexer.Token.Scan

/-!
# Reading tokens

One step of the scanner reads a token off the input. That a token is read in front of a certain rest
is the relation `Reads`, and that a list of tokens is read off the text that it covers, token by
token, is `Readable`. A scan gives a readable list that covers the line (`readable_scanFrom`), and
every readable list is the scan of what it covers (`scanFrom_covered`). So a statement on two scans
comes down to single tokens, each in front of two different rests.
-/

namespace PseudocodeLexer

open Text

/-- The text that tokens cover, which is that of their lexemes one behind the other. -/
def covered (tokens : List Token) : Text :=
  tokens.flatMap Token.lexeme

@[simp]
theorem covered_nil : covered [] = [] := rfl

@[simp]
theorem covered_cons (token : Token) (tokens : List Token) :
    covered (token :: tokens) = token.lexeme ++ covered tokens := rfl

@[simp]
theorem covered_append (tokens₁ tokens₂ : List Token) :
    covered (tokens₁ ++ tokens₂) = covered tokens₁ ++ covered tokens₂ :=
  List.flatMap_append

/-! ## Ends of words -/

@[simp]
theorem endsWithWordChar_nil : endsWithWordChar [] = false := rfl

@[simp]
theorem endsWithWordChar_singleton (c : Char) : endsWithWordChar [c] = isWordChar c := rfl

theorem endsWithWordChar_append {s t : Text} (ht : t ≠ []) :
    endsWithWordChar (s ++ t) = endsWithWordChar t := by
  unfold endsWithWordChar
  rw [List.getLast?_append, List.getLast?_eq_some_getLast ht, Option.some_or]

theorem endsWithWordChar_of_forall {t : Text} (ht : t ≠ []) (h : ∀ c ∈ t, isWordChar c = true) :
    endsWithWordChar t = true := by
  unfold endsWithWordChar
  rw [List.getLast?_eq_some_getLast ht]
  exact h _ (List.getLast_mem ht)

@[simp]
theorem startsWithWordChar_cons (c : Char) (t : Text) :
    startsWithWordChar (c :: t) = isWordChar c := rfl

theorem startsWithWordChar_append {s t : Text} (hs : s ≠ []) :
    startsWithWordChar (s ++ t) = startsWithWordChar s := by
  cases s with
  | nil => exact absurd rfl hs
  | cons c s => rfl

/-- Whether a word character comes before what follows the text, given whether one comes before
the text. -/
def wordBehind (afterWord : Bool) (t : Text) : Bool :=
  (t.getLast?.map isWordChar).getD afterWord

@[simp]
theorem wordBehind_nil (afterWord : Bool) : wordBehind afterWord [] = afterWord := rfl

theorem wordBehind_of_ne_nil (afterWord : Bool) {t : Text} (h : t ≠ []) :
    wordBehind afterWord t = endsWithWordChar t := by
  unfold wordBehind endsWithWordChar
  rw [List.getLast?_eq_some_getLast h]
  rfl

@[simp]
theorem wordBehind_false (t : Text) : wordBehind false t = endsWithWordChar t := by
  by_cases h : t = []
  · subst t
    rfl
  · exact wordBehind_of_ne_nil false h

theorem wordBehind_append (afterWord : Bool) (s t : Text) :
    wordBehind afterWord (s ++ t) = wordBehind (wordBehind afterWord s) t := by
  by_cases h : t = []
  · subst t
    simp
  · rw [wordBehind_of_ne_nil _ h, wordBehind_of_ne_nil _ (List.append_ne_nil_of_right_ne_nil s h),
      endsWithWordChar_append h]

/-! ## One step -/

/-- The first token of the input and what is left behind it. -/
def nextToken? (rules : List Rule) (afterWord : Bool) : Text → Option (Token × Text)
  | [] => none
  | c :: rest =>
      match firstMatch? rules afterWord (c :: rest) with
      | some (kind, lexeme, after) => some (⟨kind, lexeme⟩, after)
      | none => some (⟨.text, [c]⟩, rest)

theorem nextToken?_cut {rules : List Rule} {afterWord : Bool} {input : Text} {token : Token}
    {rest : Text} (h : nextToken? rules afterWord input = some (token, rest)) :
    Cut input token.lexeme rest := by
  cases input with
  | nil => simp [nextToken?] at h
  | cons c input =>
      simp only [nextToken?] at h
      split at h
      · rename_i hmatch
        cases h
        exact firstMatch?_cut hmatch
      · cases h
        exact ⟨rfl, by simp⟩

theorem exists_nextToken? (rules : List Rule) (afterWord : Bool) {input : Text} (h : input ≠ []) :
    ∃ token rest, nextToken? rules afterWord input = some (token, rest) := by
  cases input with
  | nil => exact absurd rfl h
  | cons c input =>
      simp only [nextToken?]
      split
      · exact ⟨_, _, rfl⟩
      · exact ⟨_, _, rfl⟩

theorem scanFrom_nil (rules : List Rule) (afterWord : Bool) : scanFrom rules afterWord [] = [] := by
  rw [scanFrom]

theorem scanFrom_of_nextToken? {rules : List Rule} {afterWord : Bool} {input : Text} {token : Token}
    {rest : Text} (h : nextToken? rules afterWord input = some (token, rest)) :
    scanFrom rules afterWord input
      = token :: scanFrom rules (endsWithWordChar token.lexeme) rest := by
  cases input with
  | nil => simp [nextToken?] at h
  | cons c input =>
      rw [scanFrom]
      simp only [nextToken?] at h
      split at h
      · rename_i hmatch
        cases h
        split
        · rename_i hmatch'
          rw [hmatch] at hmatch'
          cases hmatch'
          rfl
        · rename_i hnone
          rw [hmatch] at hnone
          cases hnone
      · rename_i hnone
        cases h
        split
        · rename_i hmatch
          rw [hnone] at hmatch
          cases hmatch
        · rfl

/-! ## Readable lists -/

/-- The scanner reads the token where the rest comes behind it. -/
def Reads (rules : List Rule) (afterWord : Bool) (token : Token) (rest : Text) : Prop :=
  nextToken? rules afterWord (token.lexeme ++ rest) = some (token, rest)

theorem Reads.lexeme_ne_nil {rules : List Rule} {afterWord : Bool} {token : Token} {rest : Text}
    (h : Reads rules afterWord token rest) : token.lexeme ≠ [] :=
  (nextToken?_cut h).ne_nil

/-- The scanner reads the tokens one behind the other off the text that they cover. -/
def Readable (rules : List Rule) : Bool → List Token → Prop
  | _, [] => True
  | afterWord, token :: tokens =>
      Reads rules afterWord token (covered tokens) ∧
        Readable rules (endsWithWordChar token.lexeme) tokens

/-- What follows readable tokens is readable behind them. -/
theorem Readable.suffix {rules : List Rule} {afterWord : Bool} {tokens₁ tokens₂ : List Token}
    (h : Readable rules afterWord (tokens₁ ++ tokens₂)) :
    Readable rules (wordBehind afterWord (covered tokens₁)) tokens₂ := by
  induction tokens₁ generalizing afterWord with
  | nil => exact h
  | cons token tokens₁ ih =>
      obtain ⟨hreads, hreadable⟩ := h
      rw [covered_cons, wordBehind_append, wordBehind_of_ne_nil afterWord hreads.lexeme_ne_nil]
      exact ih hreadable

/-- Each of a list of readable tokens is read in front of those behind it. -/
theorem Readable.reads {rules : List Rule} {afterWord : Bool} {tokens₁ tokens₂ : List Token}
    {token : Token} (h : Readable rules afterWord (tokens₁ ++ token :: tokens₂)) :
    Reads rules (wordBehind afterWord (covered tokens₁)) token (covered tokens₂) :=
  h.suffix.1

/-- What is covered has a first token, read there. -/
theorem Readable.exists_nextToken? {rules : List Rule} {afterWord : Bool} {tokens : List Token}
    {c : Char} {input : Text} (h : Readable rules afterWord tokens)
    (hcovered : covered tokens = c :: input) :
    ∃ token tokens', tokens = token :: tokens' ∧
      nextToken? rules afterWord (c :: input) = some (token, covered tokens') ∧
        Readable rules (endsWithWordChar token.lexeme) tokens' := by
  cases tokens with
  | nil => cases hcovered
  | cons token tokens' =>
      obtain ⟨hreads, hreadable⟩ := h
      unfold Reads at hreads
      rw [← covered_cons, hcovered] at hreads
      exact ⟨token, tokens', rfl, hreads, hreadable⟩

/-- Each of a list of readable tokens is read in front of something. -/
theorem Readable.exists_reads {rules : List Rule} {afterWord : Bool} {tokens : List Token}
    (h : Readable rules afterWord tokens) {token : Token} (hmem : token ∈ tokens) :
    ∃ behindWord rest, Reads rules behindWord token rest := by
  obtain ⟨tokens₁, tokens₂, rfl⟩ := List.append_of_mem hmem
  exact ⟨_, _, h.reads⟩

/-- Every lexeme of a readable list is filled. -/
theorem Readable.lexeme_ne_nil {rules : List Rule} {afterWord : Bool} {tokens : List Token}
    (h : Readable rules afterWord tokens) {token : Token} (hmem : token ∈ tokens) :
    token.lexeme ≠ [] := by
  obtain ⟨behindWord, rest, hreads⟩ := h.exists_reads hmem
  exact hreads.lexeme_ne_nil

theorem readable_scanFrom (rules : List Rule) (afterWord : Bool) (input : Text) :
    covered (scanFrom rules afterWord input) = input ∧
      Readable rules afterWord (scanFrom rules afterWord input) := by
  by_cases hinput : input = []
  · subst input
    rw [scanFrom_nil]
    exact ⟨rfl, trivial⟩
  · obtain ⟨token, rest, hnext⟩ := exists_nextToken? rules afterWord hinput
    have hcut := nextToken?_cut hnext
    -- The rest is shorter than the input, since the lexeme is filled.
    have hlt := hcut.length_lt
    obtain ⟨hcovered, hreadable⟩ := readable_scanFrom rules (endsWithWordChar token.lexeme) rest
    rw [scanFrom_of_nextToken? hnext]
    refine ⟨?_, ?_, hreadable⟩
    · rw [covered_cons, hcovered, hcut.append]
    · unfold Reads
      rw [hcovered, hcut.append, hnext]
termination_by input.length

theorem covered_scan (rules : List Rule) (line : Text) : covered (scan rules line) = line :=
  (readable_scanFrom rules false line).1

theorem readable_scan (rules : List Rule) (line : Text) : Readable rules false (scan rules line) :=
  (readable_scanFrom rules false line).2

/-- A readable list is the scan of the text that it covers. -/
theorem scanFrom_covered {rules : List Rule} {afterWord : Bool} {tokens : List Token}
    (h : Readable rules afterWord tokens) : scanFrom rules afterWord (covered tokens) = tokens := by
  induction tokens generalizing afterWord with
  | nil => exact scanFrom_nil rules afterWord
  | cons token tokens ih => rw [covered_cons, scanFrom_of_nextToken? h.1, ih h.2]

theorem scanFrom_eq_iff {rules : List Rule} {afterWord : Bool} {input : Text}
    {tokens : List Token} : scanFrom rules afterWord input = tokens ↔
      covered tokens = input ∧ Readable rules afterWord tokens := by
  constructor
  · rintro rfl
    exact readable_scanFrom rules afterWord input
  · rintro ⟨rfl, hreadable⟩
    exact scanFrom_covered hreadable

theorem scan_eq_iff {rules : List Rule} {line : Text} {tokens : List Token} :
    scan rules line = tokens ↔ covered tokens = line ∧ Readable rules false tokens :=
  scanFrom_eq_iff

end PseudocodeLexer
