import PseudocodeLexer.Proofs.NextToken

/-!
# The order of the rules

Where several rules recognize something at one place, the one tried first wins. Of the rules in the
table, though, only six pairs ever compete for a place (`Rule.table_pairwise`): a keyword can be read
as an identifier, and the longer symbols begin with an operator. So a reordered table scans every
line as the table itself does exactly if the winner of each of these pairs is still tried before
the loser (`scan_reordered_iff`).

Two facts on lists carry this. What a search finds is an element tried no later than any other that
answers (`exists_idxOf_le_of_findSome?`), and two searches find the same if all elements that answer
stand in the same order (`findSome?_eq_of_perm`).
-/

namespace PseudocodeLexer

open Text

/-! ## The first to answer -/

section Search

variable {α β : Type} [DecidableEq α] {f : α → Option β} {l l' : List α}

/-- The element that answers a search stands in front of all others that could. -/
theorem exists_idxOf_le_of_findSome? {b : β} (h : l.findSome? f = some b) :
    ∃ a ∈ l, f a = some b ∧ ∀ x, (f x).isSome = true → l.idxOf a ≤ l.idxOf x := by
  obtain ⟨before, a, behind, rfl, ha, hbefore⟩ := List.findSome?_eq_some_iff.mp h
  have hnot (x : α) (hx : (f x).isSome = true) : x ∉ before := by
    intro hmem
    rw [hbefore x hmem] at hx
    exact Bool.noConfusion hx
  refine ⟨a, by simp, ha, ?_⟩
  intro x hx
  rw [List.idxOf_append_of_notMem (hnot a (Option.isSome_of_eq_some ha)),
    List.idxOf_append_of_notMem (hnot x hx), List.idxOf_cons_self]
  omega

theorem rel_of_idxOf_lt {R : α → α → Prop} {a b : α} (h : l.Pairwise R) (hb : b ∈ l)
    (hlt : l.idxOf a < l.idxOf b) : R a b := by
  have hb' := List.idxOf_lt_length_iff.mpr hb
  have hrel := List.pairwise_iff_getElem.mp h _ _ (Nat.lt_trans hlt hb') hb' hlt
  rwa [List.getElem_idxOf, List.getElem_idxOf] at hrel

/-- A search finds the same in two orders of a list if the elements that answer stand in the same
order in both. -/
theorem findSome?_eq_of_perm (hperm : l'.Perm l)
    (horder : l.Pairwise fun a b => (f a).isSome = true → (f b).isSome = true →
      l'.idxOf a < l'.idxOf b) : l'.findSome? f = l.findSome? f := by
  cases hfound : l.findSome? f with
  | none =>
      rw [List.findSome?_eq_none_iff] at hfound ⊢
      intro a ha
      exact hfound a (hperm.mem_iff.mp ha)
  | some b =>
      obtain ⟨a, ha, hfa, hfirst⟩ := exists_idxOf_le_of_findSome? hfound
      have hanswers := Option.isSome_of_eq_some hfa
      have hsome : (l'.findSome? f).isSome = true :=
        List.findSome?_isSome_iff.mpr ⟨a, hperm.mem_iff.mpr ha, hanswers⟩
      obtain ⟨b', hfound'⟩ := Option.isSome_iff_exists.mp hsome
      obtain ⟨a', ha', hfa', hfirst'⟩ := exists_idxOf_le_of_findSome? hfound'
      have hanswers' := Option.isSome_of_eq_some hfa'
      -- If the searches stopped at different elements, these would have changed places.
      have heq : a = a' := by
        by_contra hne
        have hlt : l.idxOf a < l.idxOf a' :=
          Nat.lt_of_le_of_ne (hfirst a' hanswers') fun h => hne ((List.idxOf_inj ha).mp h)
        have hlt' := rel_of_idxOf_lt horder (hperm.mem_iff.mp ha') hlt hanswers hanswers'
        exact absurd (hfirst' a hanswers) (Nat.not_le.mpr hlt')
      rw [hfound', ← hfa', ← heq, hfa]

end Search

/-! ## Kinds and rules -/

/-- The rule that tokens of the kind come from. Unclassified characters come from none. -/
def Kind.rule? : Kind → Option Rule
  | .control _ => some .controlKeyword
  | .io _ => some .ioKeyword
  | .dataType _ => some .typeKeyword
  | .string => some .string
  | .number => some .number
  | .assignment => some .assignment
  | .comparison _ => some .comparison
  | .operator _ => some .operator
  | .punctuation _ => some .punctuation
  | .identifier => some .identifier
  | .whitespace => some .whitespace
  | .comment _ => some .comment
  | .text => none

namespace Rule

theorem rule?_of_recognize? {rule : Rule} {input : Text} {kind : Kind} {lexeme rest : Text}
    (h : rule.recognize? input = some (kind, lexeme, rest)) : kind.rule? = some rule := by
  cases rule <;>
    (obtain ⟨_, -, heq⟩ := Option.map_eq_some_iff.mp h; cases heq; rfl)

theorem recognize?_of_attempt? {rule : Rule} {afterWord : Bool} {input : Text}
    {found : Kind × Text × Text} (h : rule.attempt? afterWord input = some found) :
    rule.recognize? input = some found := by
  unfold attempt? at h
  split at h
  · cases h
  · exact h

/-! ## The rules that compete -/

/-- The pairs of rules that compete for a place, the winner first. -/
def rivals : List (Rule × Rule) :=
  [(.controlKeyword, .identifier), (.ioKeyword, .identifier), (.typeKeyword, .identifier),
   (.comment, .operator), (.assignment, .operator), (.comparison, .operator)]

/-- The first rule, if it is in the table at all, is tried before the second. -/
def TriedBefore (rules : List Rule) (first second : Rule) : Prop :=
  first ∈ rules → rules.idxOf first < rules.idxOf second

/-- Of the rules that compete the winners are tried before the losers. -/
def KeepsPriorities (rules : List Rule) : Prop :=
  ∀ pair ∈ rivals, TriedBefore rules pair.1 pair.2

instance (rules : List Rule) : Decidable (KeepsPriorities rules) :=
  inferInstanceAs (Decidable (∀ pair ∈ rivals,
    pair.1 ∈ rules → rules.idxOf pair.1 < rules.idxOf pair.2))

/-- If both rules recognize something at the start of the input, they are rivals. -/
def CompeteAsRivals (input : Text) (first second : Rule) : Prop :=
  (first.recognize? input).isSome = true → (second.recognize? input).isSome = true →
    (first, second) ∈ rivals

end Rule

/-! ### Keywords -/

/-- No text begins with both words as whole words. -/
def WordsApart (word word' : Text) : Prop :=
  word ≠ word' ∧ extends? word word' = false ∧ extends? word' word = false

instance (word word' : Text) : Decidable (WordsApart word word') :=
  inferInstanceAs (Decidable (_ ∧ _ ∧ _))

theorem WordsApart.not_standsAt {word word' input : Text} (h : WordsApart word word')
    (hword : standsAt word input = true) : standsAt word' input = false := by
  obtain ⟨hne, hextends, hextends'⟩ := h
  rw [Bool.eq_false_iff]
  intro hword'
  exact hne (eq_of_standsAt hword hword' hextends hextends')

/-- Vocabularies whose words are apart from each other are never found at one place. -/
theorem Vocabulary.keyword?_eq_none_of_apart {κ κ' : Type} {v : Vocabulary κ} {v' : Vocabulary κ'}
    {input : Text} (hapart : ∀ word ∈ v.words, ∀ word' ∈ v'.words, WordsApart word word')
    (h : (v.keyword? input).isSome = true) : v'.keyword? input = none := by
  obtain ⟨⟨keyword, word, rest⟩, hfound⟩ := Option.isSome_iff_exists.mp h
  have hword := Vocabulary.wholeWord?_of_keyword? hfound
  have hstands := List.find?_some (wholeWord?_eq_some_iff.mp hword).1
  have hnone : wholeWord? v'.words input = none := by
    rw [wholeWord?_eq_none_iff]
    intro word' hmem'
    exact (hapart word (wholeWord?_mem hword) word' hmem').not_standsAt hstands
  rw [Vocabulary.keyword?, hnone]

private theorem vocabularies_apart :
    (∀ word ∈ ControlKeyword.words, ∀ word' ∈ IoKeyword.words ++ TypeKeyword.words,
      WordsApart word word') ∧
    (∀ word ∈ IoKeyword.words, ∀ word' ∈ TypeKeyword.words, WordsApart word word') := by
  decide +kernel

namespace Rule

private theorem competeAsRivals_of_apart {κ κ' : Type} {v : Vocabulary κ} {v' : Vocabulary κ'}
    {input : Text} {first second : Rule}
    (hfirst : (first.recognize? input).isSome = (v.keyword? input).isSome)
    (hsecond : (second.recognize? input).isSome = (v'.keyword? input).isSome)
    (hapart : ∀ word ∈ v.words, ∀ word' ∈ v'.words, WordsApart word word') :
    CompeteAsRivals input first second := by
  intro hsome hsome'
  rw [hfirst] at hsome
  rw [hsecond, Vocabulary.keyword?_eq_none_of_apart hapart hsome] at hsome'
  exact Bool.noConfusion hsome'

/-- The keyword rules never compete with each other, but each of them with that for identifiers. -/
private theorem wordRules_pairwise (input : Text) :
    [controlKeyword, ioKeyword, typeKeyword, identifier].Pairwise (CompeteAsRivals input) := by
  obtain ⟨hcontrol, hio⟩ := vocabularies_apart
  simp only [List.mem_append] at hcontrol
  have hcontrolIo : CompeteAsRivals input controlKeyword ioKeyword :=
    competeAsRivals_of_apart Option.isSome_map Option.isSome_map
      fun word hmem word' hmem' => hcontrol word hmem word' (.inl hmem')
  have hcontrolType : CompeteAsRivals input controlKeyword typeKeyword :=
    competeAsRivals_of_apart Option.isSome_map Option.isSome_map
      fun word hmem word' hmem' => hcontrol word hmem word' (.inr hmem')
  have hioType : CompeteAsRivals input ioKeyword typeKeyword :=
    competeAsRivals_of_apart Option.isSome_map Option.isSome_map hio
  have hidentifier (rule : Rule) (h : (rule, identifier) ∈ rivals) :
      CompeteAsRivals input rule identifier := fun _ _ => h
  simp only [List.pairwise_cons, List.forall_mem_cons]
  exact ⟨⟨hcontrolIo, hcontrolType, hidentifier _ (by decide), by simp⟩,
    ⟨hioType, hidentifier _ (by decide), by simp⟩, ⟨hidentifier _ (by decide), by simp⟩,
    by simp, .nil⟩

/-! ### Signs -/

/-- An arrow is no comparison, and each longer symbol competes with the operator rule. -/
private theorem signRules_pairwise (comments : Bool) (operator : Operator) (input : Text) :
    (longerRules comments operator ++ [Rule.operator]).Pairwise (CompeteAsRivals input) := by
  rw [List.pairwise_append]
  refine ⟨?_, List.pairwise_singleton _ _, ?_⟩
  · have hless : CompeteAsRivals input assignment comparison := by
      intro harrow hrelation
      simp only [recognize?, Option.isSome_map] at harrow hrelation
      unfold assignment? at harrow
      split at harrow
      · simp [Comparison.recognize?] at hrelation
      · cases harrow
    cases operator with
    | less => simpa [longerRules] using hless
    | divide => cases comments <;> simp [longerRules]
    | greater | equal | not | plus | minus | multiply | modulo => simp [longerRules]
  · have hrivals : ∀ rule ∈ longerRules comments operator, (rule, Rule.operator) ∈ rivals := by
      cases operator <;> cases comments <;> decide
    intro rule hmem second hsecond _ _
    rw [List.mem_singleton.mp hsecond]
    exact hrivals rule hmem

/-! ### The whole table -/

/-- Of two rules in the table that recognize something at the same place, the first is the winner
and the second the loser of a pair of rivals. -/
theorem table_pairwise (comments : Bool) (c : Char) (rest : Text) :
    (table comments).Pairwise (CompeteAsRivals (c :: rest)) := by
  -- Only the rules that the character opens need to be looked at.
  have hcandidates : (candidates (table comments) false c).Pairwise
      (CompeteAsRivals (c :: rest)) := by
    cases charClass c with
    | word hword =>
        cases hstart : isIdentifierStart c with
        | true =>
            rw [candidates_of_isIdentifierStart hstart]
            exact wordRules_pairwise (c :: rest)
        | false =>
            cases hdigit : c.isDigit with
            | true =>
                rw [candidates_of_isDigit hdigit]
                exact List.pairwise_singleton _ _
            | false =>
                rw [candidates_of_numeral hword hstart hdigit]
                exact .nil
    | blank hblank =>
        rw [candidates_of_isBlank hblank]
        exact List.pairwise_singleton _ _
    | quote hquote =>
        subst hquote
        rw [candidates_quote]
        exact List.pairwise_singleton _ _
    | sign operator hsign =>
        subst hsign
        rw [candidates_sign]
        exact signRules_pairwise comments operator _
    | mark mark hmark =>
        subst hmark
        rw [candidates_mark]
        exact List.pairwise_singleton _ _
    | stray hword hblank hquote hsign hmark =>
        rw [candidates_of_no_symbol hword hquote hsign hmark, hblank]
        exact .nil
  unfold candidates at hcandidates
  rw [List.pairwise_filter] at hcandidates
  refine hcandidates.imp ?_
  intro first second hrivals hfirst hsecond
  have hopens {rule : Rule} (h : (rule.recognize? (c :: rest)).isSome = true) :
      rule.opens c = true := by
    obtain ⟨_, hfound⟩ := Option.isSome_iff_exists.mp h
    exact opens_of_recognize? hfound
  exact hrivals (by simp [hopens hfirst]) (by simp [hopens hsecond]) hfirst hsecond

end Rule

/-! ## Reordered tables -/

section

variable {comments : Bool} {rules : List Rule}

/-- A table that keeps the priorities finds the same as the one that it is a reordering of. -/
theorem firstMatch?_reordered (hperm : rules.Perm (Rule.table comments))
    (hkeeps : Rule.KeepsPriorities rules) (afterWord : Bool) (c : Char) (rest : Text) :
    firstMatch? rules afterWord (c :: rest)
      = firstMatch? (Rule.table comments) afterWord (c :: rest) := by
  apply findSome?_eq_of_perm hperm
  refine (Rule.table_pairwise comments c rest).imp_of_mem ?_
  intro first second hmem _ hrivals hfirst hsecond
  have hrecognize {rule : Rule} (h : (rule.attempt? afterWord (c :: rest)).isSome = true) :
      (rule.recognize? (c :: rest)).isSome = true := by
    obtain ⟨found, hfound⟩ := Option.isSome_iff_exists.mp h
    exact Option.isSome_of_eq_some (Rule.recognize?_of_attempt? hfound)
  exact hkeeps _ (hrivals (hrecognize hfirst) (hrecognize hsecond)) (hperm.mem_iff.mpr hmem)

/-- Tables that find the same at every place read the same tokens. -/
theorem Readable.of_firstMatch?_eq {rules' : List Rule} {afterWord : Bool} {tokens : List Token}
    (hsame : ∀ afterWord c rest, firstMatch? rules' afterWord (c :: rest)
      = firstMatch? rules afterWord (c :: rest))
    (h : Readable rules afterWord tokens) : Readable rules' afterWord tokens := by
  have hnext (afterWord : Bool) (input : Text) :
      nextToken? rules' afterWord input = nextToken? rules afterWord input := by
    cases input with
    | nil => rfl
    | cons c rest => simp only [nextToken?, hsame]
  induction tokens generalizing afterWord with
  | nil => trivial
  | cons token tokens ih =>
      obtain ⟨hreads, hreadable⟩ := h
      refine ⟨?_, ih hreadable⟩
      unfold Reads at hreads ⊢
      rw [hnext, hreads]

end

/-- The rule that the first token of a line comes from is tried no later than any other that
recognizes something there. -/
theorem idxOf_le_of_scan {rules : List Rule} {line : Text} {rule other : Rule}
    (h : (scan rules line).head?.bind (·.kind.rule?) = some rule)
    (hother : (other.attempt? false line).isSome = true) :
    rules.idxOf rule ≤ rules.idxOf other := by
  cases line with
  | nil => simp [scan, scanFrom_nil] at h
  | cons c line =>
      obtain ⟨token, rest, hnext⟩ := exists_nextToken? rules false (List.cons_ne_nil c line)
      rw [scan, scanFrom_of_nextToken? hnext] at h
      simp only [nextToken?] at hnext
      split at hnext
      · rename_i kind lexeme after hmatch
        cases hnext
        obtain ⟨found, -, hattempt, hfirst⟩ := exists_idxOf_le_of_findSome? hmatch
        have hrule := Rule.rule?_of_recognize? (Rule.recognize?_of_attempt? hattempt)
        obtain rfl : found = rule := Option.some.inj (hrule.symm.trans h)
        exact hfirst other hother
      · cases hnext
        cases h

namespace Rule

/-- A line on which the winner of a pair of rivals competes with the loser. -/
private def contested : Rule → Text
  | .controlKeyword => "Si".toList
  | .ioKeyword => "Lire".toList
  | .typeKeyword => "entier".toList
  | .comment => "//".toList
  | .assignment => "<-".toList
  | .comparison => "<=".toList
  | _ => []

private theorem contested_spec : ∀ pair ∈ rivals, pair.1 ≠ pair.2 ∧
    (pair.2.attempt? false (contested pair.1)).isSome = true ∧
    ∀ comments, pair.1 ∈ table comments →
      (scan (table comments) (contested pair.1)).head?.bind (·.kind.rule?) = some pair.1 := by
  decide +kernel

end Rule

/-- **The order of the rules matters for six pairs only.** A reordered table scans every line as the
table itself does exactly if each keyword rule is still tried before that for identifiers, and the
rules for comments, the assignment arrow and comparisons before that for operators. -/
theorem scan_reordered_iff (comments : Bool) (rules : List Rule)
    (hperm : rules.Perm (Rule.table comments)) :
    (∀ line, scan rules line = scan (Rule.table comments) line) ↔ Rule.KeepsPriorities rules := by
  constructor
  · intro hscan pair hpair hmem
    obtain ⟨hne, hloser, hwinner⟩ := Rule.contested_spec pair hpair
    have hfirst := hwinner comments (hperm.mem_iff.mp hmem)
    rw [← hscan] at hfirst
    have hle := idxOf_le_of_scan hfirst hloser
    exact Nat.lt_of_le_of_ne hle fun heq => hne ((List.idxOf_inj hmem).mp heq)
  · intro hkeeps line
    have hreadable := (readable_scan (Rule.table comments) line).of_firstMatch?_eq
      (firstMatch?_reordered hperm hkeeps)
    exact scan_eq_iff.mpr ⟨covered_scan _ line, hreadable⟩

/-- The table from back to front, save that the winners stay in front of the losers. -/
def Rule.backwards : List Rule :=
  [.whitespace, .punctuation, .comparison, .assignment, .comment, .operator, .number, .string,
   .typeKeyword, .ioKeyword, .controlKeyword, .identifier]

theorem scan_backwards :
    Rule.backwards.Perm (Rule.table true) ∧ Rule.KeepsPriorities Rule.backwards ∧
      scan Rule.backwards "Si entier<-3 // Lire".toList
        = scan (Rule.table true) "Si entier<-3 // Lire".toList :=
  ⟨by decide, by decide, (scan_reordered_iff true Rule.backwards (by decide)).mpr (by decide) _⟩

end PseudocodeLexer
