import PseudocodeLexer.Json.Skip
import PseudocodeLexer.Proofs.SpelledStrings

/-!
# Skipped values

A value that nobody asked for is skipped exactly, whatever it holds and however deep it is nested:
skipping stops behind its text (`skipValue_of_writes`). By induction on the derivation, a phrase
between brackets is skipped up to and including the closing one, and leaves the brackets that were
open before it (`Phrase.SkipsOver`).
-/

namespace PseudocodeLexer.Json

open NumericLiteral (IsDigits)

/-! ## Blanks -/

theorem IsBlanks.isBlank {t : Text} (h : IsBlanks t) : ∀ x ∈ Symbol.ofText t, x.isBlank = true := by
  intro x hx
  obtain ⟨c, hc, rfl⟩ := List.mem_map.mp hx
  have hall : ([' ', '\n', '\t', '\r'].all fun c => (Symbol.char c).isBlank) = true := by decide
  exact List.all_eq_true.mp hall c (h c hc)

theorem skipBlanks_ofText_append {b : Text} (hb : IsBlanks b) (s : List Symbol) :
    skipBlanks (Symbol.ofText b ++ s) = skipBlanks s :=
  List.dropWhile_append_of_pos hb.isBlank

theorem skipBlanks_ofText {b : Text} (hb : IsBlanks b) {x : Symbol} (hx : x.isBlank = false)
    (rest : List Symbol) : skipBlanks (Symbol.ofText b ++ x :: rest) = x :: rest :=
  skipBlanks_append hb.isBlank hx rest

/-! ## Numbers -/

def NoDigit (s : List Symbol) : Prop :=
  ∀ x ∈ s.head?, x.digit? = none

theorem digit?_isSome_of_isDigit {c : Char} (h : c.isDigit = true) :
    (Symbol.char c).digit?.isSome = true := by
  simp [Symbol.digit?, h]

theorem exists_digit?_eq {d : Char} (h : d.isDigit = true) (hzero : d ≠ '0') :
    ∃ n, (Symbol.char d).digit? = some (n + 1) := by
  have hlow := (toNat_of_isDigit h).1
  have hne : d.toNat ≠ 0x30 := fun heq => hzero (Char.toNat_inj.mp heq)
  refine ⟨d.toNat - 0x31, ?_⟩
  have hvalue : d.toNat - '0'.toNat = d.toNat - 0x31 + 1 := by
    change d.toNat - 0x30 = d.toNat - 0x31 + 1
    omega
  simp only [Symbol.digit?, h, if_true, hvalue]

theorem startsWithDigit_of_noDigit {s : List Symbol} (h : NoDigit s) :
    startsWithDigit s = false := by
  cases s with
  | nil => rfl
  | cons x s => simp [startsWithDigit, h x rfl]

theorem skipDigits_of_noDigit {s : List Symbol} (h : NoDigit s) : skipDigits s = s := by
  cases s with
  | nil => rfl
  | cons x s => exact List.dropWhile_cons_of_neg (by simp [h x rfl])

theorem skipDigits_append {digits : Text} (hdigits : ∀ c ∈ digits, c.isDigit = true)
    {s : List Symbol} (hs : NoDigit s) : skipDigits (Symbol.ofText digits ++ s) = s := by
  have hall : ∀ x ∈ Symbol.ofText digits, x.digit?.isSome = true := by
    intro x hx
    obtain ⟨c, hc, rfl⟩ := List.mem_map.mp hx
    exact digit?_isSome_of_isDigit (hdigits c hc)
  rw [skipDigits, List.dropWhile_append_of_pos hall]
  exact skipDigits_of_noDigit hs

theorem startsWithDigit_append {digits : Text} (h : IsDigits digits) (s : List Symbol) :
    startsWithDigit (Symbol.ofText digits ++ s) = true := by
  cases digits with
  | nil => exact absurd rfl h.ne_nil
  | cons d digits => exact digit?_isSome_of_isDigit (h.isDigit d (by simp))

theorem EndsNumber.noDigit {rest : List Symbol} (h : EndsNumber rest) : NoDigit rest :=
  fun x hx => (h x hx).1

theorem exponentSign_append {sign digits : Text} (hsign : sign ∈ [[], ['+'], ['-']])
    (hdigits : IsDigits digits) (s : List Symbol) :
    (exponentSign (Symbol.ofText sign ++ (Symbol.ofText digits ++ s))).2
      = Symbol.ofText digits ++ s := by
  simp only [List.mem_cons, List.not_mem_nil, or_false] at hsign
  rcases hsign with rfl | rfl | rfl
  · cases digits with
    | nil => exact absurd rfl hdigits.ne_nil
    | cons d digits =>
        have hd : d.isDigit = true := hdigits.isDigit d (by simp)
        have hplus : d ≠ '+' := ne_of_isDigit hd (by decide)
        have hminus : d ≠ '-' := ne_of_isDigit hd (by decide)
        simp [exponentSign, hplus, hminus]
  · rfl
  · rfl

theorem startsExponent_of_continuesNumber {x : Symbol} (h : continuesNumber x = false) :
    startsExponent x = false ∧ x ≠ .char '.' := by
  cases x with
  | char c =>
      simp only [continuesNumber, Bool.or_eq_false_iff, decide_eq_false_iff_not] at h
      simp [startsExponent, h]
  | stray byte => simp [startsExponent]

theorem skipExponent_append {t : Text} (h : IsExponent t) {rest : List Symbol}
    (hrest : EndsNumber rest) : skipExponent (Symbol.ofText t ++ rest) = .ok rest := by
  rcases h with rfl | ⟨e, he, sign, hsign, digits, hdigits, rfl⟩
  · cases rest with
    | nil => rfl
    | cons x rest =>
        have hx := (startsExponent_of_continuesNumber (hrest x rfl).2).1
        simp [skipExponent, hx]
  · have hstart : startsExponent (.char e) = true := by
      have hall : (['e', 'E'].all fun e => startsExponent (.char e)) = true := by decide
      exact List.all_eq_true.mp hall e he
    simp [skipExponent, hstart, exponentSign_append hsign hdigits,
      startsWithDigit_append hdigits, skipDigits_append hdigits.isDigit hrest.noDigit]

/-- In front of an exponent or the end of the number there is neither digit nor point. -/
theorem IsExponent.head {t : Text} (h : IsExponent t) {rest : List Symbol}
    (hrest : EndsNumber rest) :
    ∀ x ∈ (Symbol.ofText t ++ rest).head?, x.digit? = none ∧ x ≠ .char '.' := by
  intro x hx
  rcases h with rfl | ⟨e, he, sign, hsign, digits, hdigits, rfl⟩
  · exact ⟨(hrest x hx).1, (startsExponent_of_continuesNumber (hrest x hx).2).2⟩
  · cases hx
    simp only [List.mem_cons, List.not_mem_nil, or_false] at he
    rcases he with rfl | rfl <;> decide

theorem skipFraction_append {t u : Text} (ht : IsFraction t) (hu : IsExponent u)
    {rest : List Symbol} (hrest : EndsNumber rest) :
    NoDigit (Symbol.ofText t ++ (Symbol.ofText u ++ rest)) ∧
      skipFraction (Symbol.ofText t ++ (Symbol.ofText u ++ rest)) = .ok rest := by
  have hhead := hu.head hrest
  have hexponent := skipExponent_append hu hrest
  rcases ht with rfl | ⟨digits, hdigits, rfl⟩
  · refine ⟨fun x hx => (hhead x hx).1, ?_⟩
    rw [Symbol.ofText_nil, List.nil_append]
    cases hbehind : Symbol.ofText u ++ rest with
    | nil => rw [← hexponent, hbehind]; rfl
    | cons x behind =>
        have hpoint : x ≠ .char '.' := (hhead x (by rw [hbehind]; rfl)).2
        rw [← hexponent, hbehind, skipFraction]
        intro s hs
        cases hs
        exact hpoint rfl
  · refine ⟨?_, ?_⟩
    · rintro x ⟨⟩
      rfl
    · simp [skipFraction, startsWithDigit_append hdigits,
        skipDigits_append hdigits.isDigit fun x hx => (hhead x hx).1, hexponent]

theorem skipNumber_append {t : Text} (h : IsMagnitude t) {rest : List Symbol}
    (hrest : EndsNumber rest) : skipNumber (Symbol.ofText t ++ rest) = .ok rest := by
  obtain ⟨whole, fraction, exponent, hwhole, hfraction, hexponent, rfl⟩ := h
  obtain ⟨hnoDigit, hskip⟩ := skipFraction_append hfraction hexponent hrest
  simp only [Symbol.ofText_append, List.append_assoc]
  rcases hwhole with rfl | ⟨hdigits, hzero⟩
  · have hdigit : (Symbol.char '0').digit? = some 0 := by decide
    simp [skipNumber, hdigit, startsWithDigit_of_noDigit hnoDigit, hskip]
  · cases whole with
    | nil => exact absurd rfl hdigits.ne_nil
    | cons d digits =>
        have hd : d ≠ '0' := by
          rintro rfl
          exact hzero rfl
        obtain ⟨n, hn⟩ := exists_digit?_eq (hdigits.isDigit d (by simp)) hd
        have hrest : ∀ c ∈ digits, c.isDigit = true := fun c hc =>
          hdigits.isDigit c (by simp [hc])
        have hrun := skipDigits_append hrest hnoDigit
        simp [skipNumber, hn, hrun, hskip]

/-! ## What a value begins with -/

theorem IsMagnitude.exists_cons {t : Text} (h : IsMagnitude t) :
    ∃ d s, t = d :: s ∧ d.isDigit = true := by
  obtain ⟨whole, fraction, exponent, hwhole, -, -, rfl⟩ := h
  rcases hwhole with rfl | ⟨hdigits, -⟩
  · exact ⟨'0', _, rfl, by decide⟩
  · cases whole with
    | nil => exact absurd rfl hdigits.ne_nil
    | cons d digits => exact ⟨d, _, rfl, hdigits.isDigit d (by simp)⟩

theorem isBlank_of_isDigit {d : Char} (h : d.isDigit = true) :
    (Symbol.char d).isBlank = false := by
  simp [Symbol.isBlank, ne_of_isDigit h (d := ' ') (by decide),
    ne_of_isDigit h (d := '\n') (by decide), ne_of_isDigit h (d := '\t') (by decide),
    ne_of_isDigit h (d := '\r') (by decide)]

/-- The characters that a value can begin with. -/
def Value.BeginsWith : Value → Char → Prop
  | .null, c => c = 'n'
  | .boolean b, c => b = true ∧ c = 't' ∨ b = false ∧ c = 'f'
  | .number _, c => c = '-' ∨ c.isDigit = true
  | .string _, c => c = '"'
  | .list _, c => c = '['
  | .object _, c => c = '{'

namespace Value.BeginsWith

variable {v : Value} {c : Char}

theorem not_blank_not_bracket (h : v.BeginsWith c) :
    (Symbol.char c).isBlank = false ∧ c ≠ ']' := by
  cases v with
  | number written =>
      rcases h with rfl | hd
      · decide
      · exact ⟨isBlank_of_isDigit hd, ne_of_isDigit hd (by decide)⟩
  | boolean b => rcases h with ⟨-, rfl⟩ | ⟨-, rfl⟩ <;> decide
  | _ =>
      cases h
      decide

theorem ne {d : Char} (h : v.BeginsWith c) (hd : ¬ v.BeginsWith d) : c ≠ d := by
  rintro rfl
  exact hd h

end Value.BeginsWith

theorem Writes.exists_cons {v : Value} {t : Text} (h : Writes (.value v) t) :
    ∃ c s, t = c :: s ∧ v.BeginsWith c := by
  cases h with
  | boolean b =>
      cases b with
      | false => exact ⟨'f', "alse".toList, rfl, .inr ⟨rfl, rfl⟩⟩
      | true => exact ⟨'t', "rue".toList, rfl, .inl ⟨rfl, rfl⟩⟩
  | number h =>
      rcases h with h | ⟨magnitude, -, rfl⟩
      · obtain ⟨d, s, rfl, hd⟩ := h.exists_cons
        exact ⟨d, s, rfl, .inr hd⟩
      · exact ⟨'-', magnitude, rfl, .inl rfl⟩
  | _ => exact ⟨_, _, rfl, rfl⟩

/-! ## What stands behind a value -/

theorem endsNumber_cons {c : Char} (hc : c ∈ [',', ']', '}']) (rest : List Symbol) :
    EndsNumber (.char c :: rest) := by
  rintro x ⟨⟩
  simp only [List.mem_cons, List.not_mem_nil, or_false] at hc
  rcases hc with rfl | rfl | rfl <;> decide

theorem EndsNumber.behind_blanks {b : Text} (hb : IsBlanks b) {rest : List Symbol}
    (hrest : EndsNumber rest) : EndsNumber (Symbol.ofText b ++ rest) := by
  cases b with
  | nil => exact hrest
  | cons c b =>
      rintro x ⟨⟩
      have hc := hb c (by simp)
      simp only [List.mem_cons, List.not_mem_nil, or_false] at hc
      rcases hc with rfl | rfl | rfl | rfl <;> decide

theorem Writes.endsNumber_elements {vs : List Value} {t : Text}
    (h : Writes (.elements false vs) t) (rest : List Symbol) :
    EndsNumber (Symbol.ofText t ++ .char ']' :: rest) := by
  cases h with
  | noElement hb => exact (endsNumber_cons (by decide) rest).behind_blanks hb
  | element hb =>
      rw [Symbol.ofText_append, List.append_assoc]
      exact (endsNumber_cons (by decide) _).behind_blanks hb

theorem Writes.endsNumber_members {ms : List (Option Text × Value)} {t : Text}
    (h : Writes (.members false ms) t) (rest : List Symbol) :
    EndsNumber (Symbol.ofText t ++ .char '}' :: rest) := by
  cases h with
  | noMember hb => exact (endsNumber_cons (by decide) rest).behind_blanks hb
  | member hb =>
      rw [Symbol.ofText_append, List.append_assoc]
      exact (endsNumber_cons (by decide) _).behind_blanks hb

/-! ## Skipping -/

/-- Blanks are skipped wherever something is still to come. -/
theorem skip_blanks {b : Text} (hb : IsBlanks b) {pending : Pending} {frames : List Frame}
    (h : (pending = .firstItem ∨ pending = .nextItem) → frames ≠ []) (s : List Symbol) :
    skip pending frames (Symbol.ofText b ++ s) = skip pending frames s := by
  induction b with
  | nil => rfl
  | cons c b ih =>
      have hc : (Symbol.char c).isBlank = true := hb.isBlank _ (by simp)
      have ih := ih fun c hc => hb c (by simp [hc])
      rw [Symbol.ofText_cons, List.cons_append, ← ih]
      cases pending <;> cases frames <;> simp_all [skip]

/-- What is pending in front of an item. -/
def itemPending (first : Bool) : Pending :=
  if first then .firstItem else .nextItem

/-- Skipping passes over the text of a phrase, with the closing bracket if the phrase stands in
brackets, and goes on behind an item of what was open before. -/
def Phrase.SkipsOver (phrase : Phrase) (t : Text) : Prop :=
  ∀ frames rest,
    match phrase with
    | .value _ =>
        EndsNumber rest →
          skip .value frames (Symbol.ofText t ++ rest) = skip .nextItem frames rest
    | .elements first _ =>
        skip (itemPending first) (.list :: frames) (Symbol.ofText t ++ .char ']' :: rest)
          = skip .nextItem frames rest
    | .members first _ =>
        skip (itemPending first) (.object :: frames) (Symbol.ofText t ++ .char '}' :: rest)
          = skip .nextItem frames rest

theorem skip_scalar {x : Symbol} {s rest : List Symbol} (hblank : x.isBlank = false)
    (hlist : x ≠ .char '[') (hobject : x ≠ .char '{') (h : skipScalar x s = .ok rest)
    (frames : List Frame) : skip .value frames (x :: s) = skip .nextItem frames rest := by
  rw [skip]
  grind

theorem skip_close {first : Bool} {b : Text} (hb : IsBlanks b) (frame : Frame)
    (frames : List Frame) (rest : List Symbol) :
    skip (itemPending first) (frame :: frames) (Symbol.ofText b ++ frame.close :: rest)
      = skip .nextItem frames rest := by
  rw [skip_blanks hb (fun _ => List.cons_ne_nil _ _)]
  cases first <;> cases frame <;> simp [itemPending, skip, Frame.close, Symbol.isBlank]

/-- The separator leads to the next item, if what begins there is no closing bracket. -/
theorem skip_separator (first : Bool) (frame : Frame) {b b₁ : Text} (hb : IsBlanks b)
    (hb₁ : IsBlanks b₁) {x : Symbol} (hx : x.isBlank = false) (hclose : x ≠ frame.close)
    (frames : List Frame) (rest : List Symbol) :
    skip (itemPending first) (frame :: frames)
        (Symbol.ofText b ++ (Symbol.ofText (writeSeparator first)
          ++ (Symbol.ofText b₁ ++ x :: rest)))
      = skip frame.item (frame :: frames) (x :: rest) := by
  rw [skip_blanks hb (fun _ => List.cons_ne_nil _ _)]
  cases first with
  | true =>
      change skip .firstItem (frame :: frames) (Symbol.ofText b₁ ++ x :: rest) = _
      rw [skip_blanks hb₁ (fun _ => List.cons_ne_nil _ _), skip]
      simp [hx, hclose]
  | false =>
      change skip .nextItem (frame :: frames) (.char ',' :: (Symbol.ofText b₁ ++ x :: rest)) = _
      rw [skip, if_neg (by decide), if_pos rfl]
      exact skip_blanks hb₁ (by cases frame <;> simp [Frame.item]) _

theorem skipScalar_digit {d : Char} (hd : d.isDigit = true) (s : List Symbol) :
    skipScalar (.char d) s = skipNumber (.char d :: s) := by
  obtain ⟨n, hn⟩ := Option.isSome_iff_exists.mp (digit?_isSome_of_isDigit hd)
  have hne : ∀ c, c.isDigit = false → d ≠ c := fun c => ne_of_isDigit hd
  simp [skipScalar, hn, hne 'n' (by decide), hne 't' (by decide), hne 'f' (by decide),
    hne '-' (by decide), hne '"' (by decide)]

theorem skip_key {b b₁ : Text} (hb : IsBlanks b) (hb₁ : IsBlanks b₁) (key : List Piece)
    (frames : List Frame) (s : List Symbol) :
    skip .key frames (.char '"' :: (Symbol.ofText (closed key)
        ++ (Symbol.ofText b ++ .char ':' :: (Symbol.ofText b₁ ++ s))))
      = skip .value frames s := by
  have hkey : ∀ after, skip .key frames (.char '"' :: (Symbol.ofText (closed key) ++ after))
      = skip .colon frames after := by
    intro after
    rw [skip]
    grind [skipString_closed, Symbol.isBlank]
  rw [hkey, skip_blanks hb (by simp), skip, if_neg (by decide), if_pos rfl,
    skip_blanks hb₁ (by simp)]

theorem Writes.skipsOver {phrase : Phrase} {t : Text} (h : Writes phrase t) :
    phrase.SkipsOver t := by
  induction h with
  | null =>
      intro frames rest _
      exact skip_scalar (by decide) (by decide) (by decide) rfl frames
  | boolean b =>
      intro frames rest _
      cases b <;> exact skip_scalar (by decide) (by decide) (by decide) rfl frames
  | number h =>
      intro frames rest hrest
      rcases h with h | ⟨magnitude, h, rfl⟩
      · obtain ⟨d, s, rfl, hd⟩ := h.exists_cons
        have hlist : d ≠ '[' := ne_of_isDigit hd (by decide)
        have hobject : d ≠ '{' := ne_of_isDigit hd (by decide)
        refine skip_scalar (isBlank_of_isDigit hd) (by simpa) (by simpa) ?_ frames
        rw [skipScalar_digit hd]
        exact skipNumber_append h hrest
      · refine skip_scalar (by decide) (by decide) (by decide) ?_ frames
        exact skipNumber_append h hrest
  | string pieces =>
      intro frames rest _
      refine skip_scalar (by decide) (by decide) (by decide) ?_ frames
      exact skipString_closed pieces rest
  | list _ ih =>
      intro frames rest _
      rw [Symbol.ofText_cons, List.cons_append, skip, if_neg (by decide), if_pos rfl,
        Symbol.ofText_append, List.append_assoc]
      exact ih frames rest
  | object _ ih =>
      intro frames rest _
      rw [Symbol.ofText_cons, List.cons_append, skip, if_neg (by decide), if_neg (by decide),
        if_pos rfl, Symbol.ofText_append, List.append_assoc]
      exact ih frames rest
  | noElement hb => exact fun frames rest => skip_close hb .list frames rest
  | @element first v vs b b₁ t s hb hb₁ hv hvs ihv ihvs =>
      intro frames rest
      obtain ⟨c, t', ht, hbegins⟩ := hv.exists_cons
      obtain ⟨hblank, hclose⟩ := hbegins.not_blank_not_bracket
      have hfirst := skip_separator first .list hb hb₁ hblank
        (by simpa [Frame.close] using hclose) frames
        (Symbol.ofText t' ++ (Symbol.ofText s ++ .char ']' :: rest))
      have hvalue := ihv (.list :: frames) _ (hvs.endsNumber_elements rest)
      simp only [Symbol.ofText_append, List.append_assoc]
      rw [ht, Symbol.ofText_cons, List.cons_append, hfirst]
      rw [ht] at hvalue
      exact hvalue.trans (ihvs frames rest)
  | noMember hb => exact fun frames rest => skip_close hb .object frames rest
  | @member first key v ms b b₁ b₂ b₃ t s hb hb₁ hb₂ hb₃ hv hms ihv ihms =>
      intro frames rest
      have hvalue := ihv (.object :: frames) _ (hms.endsNumber_members rest)
      simp only [Symbol.ofText_append, Symbol.ofText_cons, List.append_assoc, List.cons_append]
      rw [skip_separator first .object hb hb₁ (by decide) (by decide)]
      exact (skip_key hb₂ hb₃ key _ _).trans (hvalue.trans (ihms frames rest))

/-- The blanks in front of a value and the text of it are skipped, and nothing behind it. -/
theorem skipValue_of_writes {v : Value} {t b : Text} (h : Writes (.value v) t) (hb : IsBlanks b)
    {rest : List Symbol} (hrest : EndsNumber rest) :
    skipValue (Symbol.ofText b ++ (Symbol.ofText t ++ rest)) = .ok rest := by
  rw [skipValue, skip_blanks hb (by simp), h.skipsOver [] rest hrest, skip]

end PseudocodeLexer.Json
