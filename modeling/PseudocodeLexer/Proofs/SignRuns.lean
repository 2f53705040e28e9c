import PseudocodeLexer.Proofs.Stops

/-!
# Runs of signs

Without the rule for comments, the symbols that are longer than a sign are five pairs of signs
(`longerSymbol_iff_mem_signPairs`). So where a token begins, two signs that form a pair are taken
together (`nextToken?_pair`) and any other sign alone (`nextToken?_alone`), whatever comes before.
A run of signs is therefore cut from left to right as `pairUp` cuts it, up to its very end
(`Readable.signRun`).
-/

namespace PseudocodeLexer

open Text

/-- The characters that operators, comparisons and the assignment arrow are made of. -/
def signs : Text :=
  "<>=!+-*/%".toList

/-- What a sign is when it stands alone. -/
def signKinds : List (Char × Kind) :=
  [('<', .operator .less), ('>', .operator .greater), ('=', .operator .equal),
   ('!', .operator .not), ('+', .operator .plus), ('-', .operator .minus),
   ('*', .operator .multiply), ('/', .operator .divide), ('%', .operator .modulo)]

/-- The pairs of signs that are symbols of their own. -/
def signPairs : List (Text × Kind) :=
  [("<-".toList, .assignment), ("<=".toList, .comparison .lessEqual),
   (">=".toList, .comparison .greaterEqual), ("==".toList, .comparison .equalEqual),
   ("!=".toList, .comparison .notEqual)]

def signToken (c : Char) : Token :=
  ⟨(signKinds.lookup c).getD .text, [c]⟩

/-- Signs from left to right: a pair wherever one stands at the cursor, and else a single sign. -/
def pairUp : Text → List Token
  | [] => []
  | [c] => [signToken c]
  | c :: d :: rest =>
      match signPairs.lookup [c, d] with
      | some kind => ⟨kind, [c, d]⟩ :: pairUp rest
      | none => signToken c :: pairUp (d :: rest)

/-! ## One step -/

theorem exists_operator_of_mem_signs : ∀ c ∈ signs, ∃ operator : Operator,
    c = operator.char ∧ signToken c = ⟨.operator operator, operator.symbol⟩ := by
  have hall : (signs.all fun c => Operator.all.any fun operator =>
      c = operator.char ∧ signToken c = ⟨.operator operator, operator.symbol⟩) = true := by decide
  intro c hc
  obtain ⟨operator, -, hoperator⟩ := List.any_eq_true.mp (List.all_eq_true.mp hall c hc)
  exact ⟨operator, of_decide_eq_true hoperator⟩

section

variable {comments afterWord : Bool} {c d : Char} {input lexeme rest : Text} {kind : Kind}

theorem longerSymbol_of_mem_signPairs (h : (lexeme, kind) ∈ signPairs) :
    LongerSymbol comments kind lexeme rest := by
  simp only [signPairs, List.mem_cons, Prod.mk.injEq, List.not_mem_nil, or_false] at h
  rcases h with ⟨rfl, rfl⟩ | ⟨rfl, rfl⟩ | ⟨rfl, rfl⟩ | ⟨rfl, rfl⟩ | ⟨rfl, rfl⟩
  · exact .assignment comments rest
  · exact .comparison comments .lessEqual rest
  · exact .comparison comments .greaterEqual rest
  · exact .comparison comments .equalEqual rest
  · exact .comparison comments .notEqual rest

theorem longerSymbol_iff_mem_signPairs :
    LongerSymbol false kind lexeme rest ↔ (lexeme, kind) ∈ signPairs := by
  refine ⟨?_, longerSymbol_of_mem_signPairs⟩
  intro h
  cases h with
  | assignment => decide
  | comparison _ comparison => cases comparison <;> decide

theorem mem_signPairs_of_lookup (h : signPairs.lookup lexeme = some kind) :
    (lexeme, kind) ∈ signPairs := by
  obtain ⟨before, behind, hsplit, -⟩ := List.lookup_eq_some_iff.mp h
  rw [hsplit]
  exact List.mem_append_right before List.mem_cons_self

theorem length_of_mem_signPairs : ∀ pair ∈ signPairs, pair.1.length = 2 := by
  decide

/-- The longer symbols are told by two signs. -/
theorem not_longerStands_iff : ¬ LongerStands false (c :: input) ↔
    ∀ d ∈ input.head?, signPairs.lookup [c, d] = none := by
  constructor
  · rintro hshort d hd
    obtain ⟨rest, rfl⟩ := List.head?_eq_some_iff.mp hd
    cases hpair : signPairs.lookup [c, d] with
    | none => rfl
    | some kind =>
        have hmem : ([c, d], kind) ∈ signPairs := mem_signPairs_of_lookup hpair
        exact absurd ⟨kind, [c, d], rest, longerSymbol_of_mem_signPairs hmem, rfl⟩ hshort
  · rintro hnone ⟨kind, lexeme, rest, hlonger, happend⟩
    have hmem := longerSymbol_iff_mem_signPairs.mp hlonger
    obtain ⟨e, d, rfl⟩ := List.length_eq_two.mp (length_of_mem_signPairs _ hmem)
    cases happend
    have hpair := hnone d rfl
    rw [List.lookup_eq_none_iff] at hpair
    simpa using hpair _ hmem

/-- A pair is taken wherever it stands. -/
theorem nextToken?_pair (h : signPairs.lookup [c, d] = some kind) :
    nextToken? (Rule.table comments) afterWord (c :: d :: input)
      = some (⟨kind, [c, d]⟩, input) :=
  reads_of_longerSymbol (longerSymbol_of_mem_signPairs (mem_signPairs_of_lookup h))

/-- A sign that forms no pair with what comes next is taken alone. -/
theorem nextToken?_alone (hc : c ∈ signs)
    (h : ∀ d ∈ input.head?, signPairs.lookup [c, d] = none) :
    nextToken? (Rule.table false) afterWord (c :: input) = some (signToken c, input) := by
  obtain ⟨operator, rfl, htoken⟩ := exists_operator_of_mem_signs c hc
  have hshort := not_longerStands_iff.mpr h
  rw [nextToken?_sign, (findSome?_longerRules_eq_none_iff operator).mpr hshort, htoken]

end

/-! ## Whole runs -/

theorem fst_mem_signs : ∀ pair ∈ signPairs, ∀ c ∈ pair.1, c ∈ signs := by
  have hall : ∀ pair ∈ signPairs, pair.1.all signs.contains = true := by decide
  intro pair hpair c hc
  exact List.contains_iff_mem.mp (List.all_eq_true.mp (hall pair hpair) c hc)

/-- The signs that are covered are taken as `pairUp` cuts them, and nothing else with them. -/
theorem Readable.signRun {afterWord : Bool} {tokens : List Token} {run behind : Text}
    (h : Readable (Rule.table false) afterWord tokens) (hcovered : covered tokens = run ++ behind)
    (hrun : ∀ c ∈ run, c ∈ signs) (hbehind : ∀ c ∈ behind.head?, c ∉ signs) :
    ∃ tokens', tokens = pairUp run ++ tokens' ∧ covered tokens' = behind := by
  fun_induction pairUp run generalizing afterWord tokens with
  | case1 => exact ⟨tokens, rfl, hcovered⟩
  | case2 c =>
      rw [List.singleton_append] at hcovered
      obtain ⟨token, tokens', rfl, hnext, -⟩ := h.exists_nextToken? hcovered
      -- The second sign of a pair would belong to the run.
      have halone : ∀ d ∈ behind.head?, signPairs.lookup [c, d] = none := by
        intro d hd
        cases hpair : signPairs.lookup [c, d] with
        | none => rfl
        | some kind =>
            have hsigns := fst_mem_signs _ (mem_signPairs_of_lookup hpair)
            exact absurd (hsigns d (by simp)) (hbehind d hd)
      rw [nextToken?_alone (hrun c List.mem_cons_self) halone] at hnext
      obtain ⟨rfl, hrest⟩ := Prod.mk.inj (Option.some.inj hnext)
      exact ⟨tokens', rfl, hrest.symm⟩
  | case3 c d rest kind hpair ih =>
      rw [List.cons_append, List.cons_append] at hcovered
      obtain ⟨token, tokens', rfl, hnext, hreadable⟩ := h.exists_nextToken? hcovered
      rw [nextToken?_pair hpair] at hnext
      obtain ⟨rfl, hrest⟩ := Prod.mk.inj (Option.some.inj hnext)
      have hrest' : ∀ e ∈ rest, e ∈ signs := by
        intro e he
        exact hrun e (by simp [he])
      obtain ⟨tokens'', rfl, hcovered''⟩ := ih hreadable hrest.symm hrest'
      exact ⟨tokens'', rfl, hcovered''⟩
  | case4 c d rest hnone ih =>
      rw [List.cons_append] at hcovered
      obtain ⟨token, tokens', rfl, hnext, hreadable⟩ := h.exists_nextToken? hcovered
      have halone : ∀ e ∈ ((d :: rest) ++ behind).head?, signPairs.lookup [c, e] = none := by
        rintro e ⟨⟩
        exact hnone
      rw [nextToken?_alone (hrun c List.mem_cons_self) halone] at hnext
      obtain ⟨rfl, hrest⟩ := Prod.mk.inj (Option.some.inj hnext)
      have hrest' : ∀ e ∈ d :: rest, e ∈ signs := by
        intro e he
        exact hrun e (List.mem_cons_of_mem _ he)
      obtain ⟨tokens'', rfl, hcovered''⟩ := ih hreadable hrest.symm hrest'
      exact ⟨tokens'', rfl, hcovered''⟩

/-- **Runs of signs are paired up from the left.** Where comments are not recognized and a token
begins, the signs from there on, as far as they go, are covered by the tokens into which they are
paired up, and the next token begins behind the last of them. So no operator stands in front of a
sign with which it would form a pair. -/
theorem scan_signRuns {line : Text} {before tokens : List Token}
    (h : scan (Rule.table false) line = before ++ tokens) :
    (∀ run behind, covered tokens = run ++ behind → (∀ c ∈ run, c ∈ signs) →
      (∀ c ∈ behind.head?, c ∉ signs) →
      ∃ tokens', tokens = pairUp run ++ tokens' ∧ covered tokens' = behind) ∧
    (∀ token behind, tokens = token :: behind →
      (token.kind = .operator .less →
        (covered behind).head? ≠ some '-' ∧ (covered behind).head? ≠ some '=') ∧
      (∀ sign ∈ [Operator.greater, .equal, .not], token.kind = .operator sign →
        (covered behind).head? ≠ some '=')) := by
  have hreadable := readable_scan (Rule.table false) line
  rw [h] at hreadable
  constructor
  · intro run behind hcovered hrun hbehind
    exact hreadable.suffix.signRun hcovered hrun hbehind
  · rintro token behind rfl
    have hnone : ∀ sign, token.kind = .operator sign →
        ∀ d ∈ (covered behind).head?, signPairs.lookup [sign.char, d] = none := by
      intro sign hkind
      have hstops := hreadable.reads.stops
      unfold Stops at hstops
      rw [hkind] at hstops
      exact not_longerStands_iff.mp hstops
    refine ⟨?_, ?_⟩
    · intro hkind
      refine ⟨?_, ?_⟩
      · intro hhead
        exact absurd (hnone _ hkind _ hhead) (by decide)
      · intro hhead
        exact absurd (hnone _ hkind _ hhead) (by decide)
    · intro sign hsign hkind hhead
      have hpairs : ∀ sign ∈ [Operator.greater, .equal, .not],
          signPairs.lookup [sign.char, '='] ≠ none := by decide
      exact hpairs sign hsign (hnone sign hkind _ hhead)

/-- Pairs that overlap, between two names. -/
theorem scan_signRuns_overlapping :
    (∃ tokens, scan (Rule.table false) "a<<-===!--b".toList
        = [⟨.identifier, ['a']⟩] ++ (pairUp "<<-===!--".toList ++ tokens) ∧
      covered tokens = ['b']) ∧
    pairUp "<<-===!--".toList
      = [⟨.operator .less, ['<']⟩, ⟨.assignment, ['<', '-']⟩,
         ⟨.comparison .equalEqual, ['=', '=']⟩, ⟨.operator .equal, ['=']⟩,
         ⟨.operator .not, ['!']⟩, ⟨.operator .minus, ['-']⟩, ⟨.operator .minus, ['-']⟩] := by
  have hscan : scan (Rule.table false) "a<<-===!--b".toList
      = [⟨.identifier, ['a']⟩] ++ scan (Rule.table false) "<<-===!--b".toList := by
    decide +kernel
  have hruns := (scan_signRuns hscan).1 "<<-===!--".toList ['b'] (covered_scan _ _)
  have hsigns : "<<-===!--".toList.all signs.contains = true := by decide
  obtain ⟨tokens, htokens, hrest⟩ := hruns
    (fun c hc => List.contains_iff_mem.mp (List.all_eq_true.mp hsigns c hc))
    (by rintro c ⟨⟩; decide)
  refine ⟨⟨tokens, ?_, hrest⟩, by decide⟩
  rw [hscan, htokens]

end PseudocodeLexer
