import TableScript.Proofs.Lines
import TableScript.Script.Literal
import TableScript.Script.Lexer

/-!
# Reading tokens, from the left to the right

`tokens` counts its steps. What it does is independent of the count (`tokensWithin_eq`), so the first
token can be taken off (`tokens_cons`) and the rest of a line is read in the same way. Everything else
follows from that equation.

Blanks around a line do not matter: a line that can be read with them is read the same without them
(`tokens_of_append_blanks`, `tokens_dropWhile_isBlank`). Few of the blanks separate tokens and none
begins or continues one, so a blank that is not skipped makes reading fail.
-/

namespace TableScript.Script

open Text

/-! ## One token after the other -/

/-- The content of a string takes its characters. -/
theorem length_stringBody {quote : Char} {raw : Bool} {cs body after : List Char}
    (h : stringBody quote raw cs = some (body, after)) : after.length ≤ cs.length := by
  fun_induction stringBody quote raw cs generalizing body after with
  | case1 => simp at h
  | case2 c rest ih =>
    rw [Option.map_eq_some_iff] at h
    obtain ⟨⟨body', after'⟩, hrec, heq⟩ := h
    have hafter : after' = after := congrArg Prod.snd heq
    have := ih (hafter ▸ hrec)
    simp only [List.length_cons]
    omega
  | case3 rest =>
    obtain ⟨rfl, rfl⟩ := Prod.mk.inj (Option.some.inj h)
    simp
  | case4 c rest _ _ ih =>
    rw [Option.map_eq_some_iff] at h
    obtain ⟨⟨body', after'⟩, hrec, heq⟩ := h
    have hafter : after' = after := congrArg Prod.snd heq
    have := ih (hafter ▸ hrec)
    simp only [List.length_cons]
    omega

/-- So does the string. -/
theorem length_readString {quote : Char} {raw : Bool} {cs after : List Char} {token : Token}
    (h : readString quote raw cs = .ok (token, after)) : after.length ≤ cs.length := by
  unfold readString at h
  split at h
  case h_1 body rest hbody =>
    obtain ⟨-, rfl⟩ := Prod.mk.inj (Except.ok.inj h)
    exact length_stringBody hbody
  case h_2 => cases h

/-- Dropping characters makes no list longer. -/
theorem length_dropWhile_le (p : Char → Bool) (cs : List Char) : (cs.dropWhile p).length ≤ cs.length :=
  (List.dropWhile_suffix p).length_le

/-- A fraction takes its characters, if there is any. -/
theorem length_splitFraction (cs : List Char) : (splitFraction cs).2.length ≤ cs.length := by
  unfold splitFraction
  split
  case h_1 rest =>
    split
    case h_1 => simp
    case h_2 c tail =>
      have := length_dropWhile_le Char.isDigit (c :: tail)
      split
      · simpa using Nat.le_succ_of_le this
      · split <;> simp
  case h_2 => exact le_rfl

/-- So does a sign. -/
theorem length_splitSignChars (cs : List Char) : (splitSignChars cs).2.length ≤ cs.length := by
  unfold splitSignChars
  split
  · split <;> simp
  · exact le_rfl

/-- So does an exponent. -/
theorem length_splitExponent (cs : List Char) : (splitExponent cs).2.length ≤ cs.length := by
  unfold splitExponent
  split
  case h_1 => exact le_rfl
  case h_2 c rest =>
    split
    case isTrue =>
      have hsign := length_splitSignChars rest
      have hdigits := length_dropWhile_le Char.isDigit (splitSignChars rest).2
      generalize splitSignChars rest = signed at hsign hdigits ⊢
      obtain ⟨sign, digits⟩ := signed
      simp only at hsign hdigits ⊢
      split
      · exact le_rfl
      · simp only [List.length_cons]
        omega
    case isFalse => exact le_rfl

/-- A number takes its first digit, at least. -/
theorem length_readNumber {c : Char} {rest after : List Char} {token : Token} (hc : c.isDigit = true)
    (h : readNumber (c :: rest) = .ok (token, after)) : after.length ≤ rest.length := by
  have hdrop : (c :: rest).dropWhile isDigitOrUnderscore = rest.dropWhile isDigitOrUnderscore :=
    List.dropWhile_cons_of_pos (by simp [isDigitOrUnderscore, hc])
  unfold readNumber at h
  simp only [hdrop] at h
  split at h
  case h_1 =>
    obtain ⟨-, rfl⟩ := Prod.mk.inj (Except.ok.inj h)
    have hfraction := length_splitFraction (rest.dropWhile isDigitOrUnderscore)
    have hwhole := length_dropWhile_le isDigitOrUnderscore rest
    exact (length_splitExponent _).trans (hfraction.trans hwhole)
  case h_2 => cases h

/-- A sign takes its first character, at least. -/
theorem length_readSign {c : Char} {rest after : List Char} {token : Token}
    (h : readSign c rest = .ok (token, after)) : after.length ≤ rest.length := by
  unfold readSign at h
  split at h
  case h_1 =>
    obtain ⟨-, rfl⟩ := Prod.mk.inj (Except.ok.inj h)
    simp
  case h_2 =>
    unfold readShortSign at h
    split at h
    · obtain ⟨-, rfl⟩ := Prod.mk.inj (Except.ok.inj h)
      exact le_rfl
    · cases h

/-- A token takes at least its first character. -/
theorem length_readToken {c : Char} {rest after : List Char} {token : Token}
    (h : readToken c rest = .ok (token, after)) : after.length ≤ rest.length := by
  unfold readToken at h
  split at h
  · exact length_readString h
  · split at h
    case isTrue hc => exact length_readNumber hc h
    case isFalse =>
      split at h
      · split at h
        · split at h
          · have := length_readString h
            simp only [List.length_cons]
            omega
          · obtain ⟨-, rfl⟩ := Prod.mk.inj (Except.ok.inj h)
            exact length_dropWhile_le _ _
        · obtain ⟨-, rfl⟩ := Prod.mk.inj (Except.ok.inj h)
          exact le_rfl
      · exact length_readSign h

/-- Steps beyond the number of characters change nothing. -/
theorem tokensWithin_eq (steps : Nat) (cs : List Char) (h : cs.length ≤ steps) :
    tokensWithin steps cs = tokens cs := by
  suffices hall : ∀ (n : Nat) (cs : List Char) (first second : Nat), cs.length ≤ n →
      cs.length ≤ first → cs.length ≤ second → tokensWithin first cs = tokensWithin second cs from
    hall cs.length cs steps cs.length le_rfl h le_rfl
  intro n
  induction n with
  | zero =>
    intro cs first second hn _ _
    rw [List.length_eq_zero_iff.mp (Nat.le_zero.mp hn), tokensWithin, tokensWithin]
  | succ n ih =>
    intro cs first second hn hf hs
    cases cs with
    | nil => rw [tokensWithin, tokensWithin]
    | cons c rest =>
      obtain ⟨f, rfl⟩ : ∃ f, first = f + 1 := ⟨first - 1, by simp at hf; omega⟩
      obtain ⟨s, rfl⟩ : ∃ s, second = s + 1 := ⟨second - 1, by simp at hs; omega⟩
      simp only [List.length_cons, Nat.add_le_add_iff_right] at hn hf hs
      rw [tokensWithin, tokensWithin, ih rest f s hn hf hs]
      cases hread : readToken c rest with
      | error e => rfl
      | ok read =>
        obtain ⟨token, after⟩ := read
        have hlen := length_readToken hread
        simp only [ih after f s (hlen.trans hn) (hlen.trans hf) (hlen.trans hs)]

/-- An empty line has no tokens. -/
@[simp] theorem tokens_nil : tokens [] = .ok [] := rfl

/-- A line from its first character on. -/
theorem tokens_cons (c : Char) (rest : List Char) :
    tokens (c :: rest) =
      if isSpace c then tokens rest
      else if c = '#' then .ok []
      else
        match readToken c rest with
        | .error e => .error e
        | .ok (token, after) => (tokens after).map (token :: ·) := by
  rw [tokens, List.length_cons, tokensWithin, tokensWithin_eq _ rest le_rfl]
  cases hread : readToken c rest with
  | error e => rfl
  | ok read =>
    obtain ⟨token, after⟩ := read
    simp only [tokensWithin_eq _ after (length_readToken hread)]
    cases tokens after <;> rfl

/-- A blank between tokens is skipped. -/
theorem tokens_space {c : Char} (h : isSpace c = true) (rest : List Char) :
    tokens (c :: rest) = tokens rest := by rw [tokens_cons, if_pos h]

/-- Nothing of a comment is read. -/
theorem tokens_comment (rest : List Char) : tokens ('#' :: rest) = .ok [] := by
  rw [tokens_cons, if_neg (by decide), if_pos rfl]

/-- The first token is followed by those of the rest. -/
theorem tokens_token {c : Char} {rest after : List Char} {token : Token} (hs : isSpace c = false)
    (hc : c ≠ '#') (h : readToken c rest = .ok (token, after)) :
    tokens (c :: rest) = (tokens after).map (token :: ·) := by
  rw [tokens_cons, hs, if_neg (by simp), if_neg hc, h]

/-! ## Blanks at the end -/

/-- A property of characters that no blank has is decided by the few blanks there are. -/
theorem eq_false_of_isBlank {p : Char → Bool} {c : Char} (h : isBlank c = true)
    (hp : ∀ n ∈ [9, 10, 11, 12, 13, 0x20, 0x85, 0xA0, 0x1680, 0x2000, 0x2001, 0x2002, 0x2003, 0x2004,
      0x2005, 0x2006, 0x2007, 0x2008, 0x2009, 0x200A, 0x2028, 0x2029, 0x202F, 0x205F, 0x3000],
      p (Char.ofNat n) = false) : p c = false := by
  have hc := hp c.toNat ((isBlank_iff c).mp h)
  rwa [Char.ofNat_toNat] at hc

/-- The test for a class of characters, over the list of its ranges. -/
theorem contains_eq_any (ranges : CharRanges) (c : Char) :
    ranges.contains c = ranges.toList.any fun range => range.1 ≤ c.toNat && c.toNat ≤ range.2 := by
  rw [CharRanges.contains, Array.any_toList]

/-- No name goes on with a blank. -/
theorem isNameChar_of_isBlank {c : Char} (h : isBlank c = true) : isNameChar c = false := by
  refine eq_false_of_isBlank h ?_
  simp only [isNameChar, isAlphanumeric, contains_eq_any]
  decide +kernel

/-- Letters are letters or numbers. -/
theorem isAlphanumeric_of_isAlphabetic {c : Char} (h : isAlphabetic c = true) :
    isAlphanumeric c = true := by
  unfold isAlphabetic at h
  unfold isAlphanumeric
  split at h
  case isTrue hascii => rw [if_pos hascii, Char.isAlphanum, h, Bool.true_or]
  case isFalse hascii => rw [if_neg hascii, h, Bool.true_or]

/-- A name can go on with whatever it can begin with. -/
theorem isNameChar_of_isNameStart {c : Char} (h : isNameStart c = true) : isNameChar c = true := by
  rw [isNameStart, Bool.or_eq_true] at h
  rw [isNameChar, Bool.or_eq_true]
  exact h.imp_left isAlphanumeric_of_isAlphabetic

/-- No name begins with a blank. -/
theorem isNameStart_of_isBlank {c : Char} (h : isBlank c = true) : isNameStart c = false := by
  by_contra hstart
  have hname := isNameChar_of_isNameStart (Bool.not_eq_false _ ▸ hstart)
  rw [isNameChar_of_isBlank h] at hname
  cases hname

/-- No blank is a letter. -/
theorem isAlphabetic_of_isBlank {c : Char} (h : isBlank c = true) : isAlphabetic c = false := by
  have hstart := isNameStart_of_isBlank h
  rw [isNameStart, Bool.or_eq_false_iff] at hstart
  exact hstart.1

/-- No blank is a digit. -/
theorem isDigit_of_isBlank {c : Char} (h : isBlank c = true) : c.isDigit = false :=
  eq_false_of_isBlank h (by decide +kernel)

/-- No blank is a quote. -/
theorem isQuote_of_isBlank {c : Char} (h : isBlank c = true) : isQuote c = false :=
  eq_false_of_isBlank h (by decide +kernel)

/-- The characters that mean something inside a token, after its first one, are no blanks. -/
theorem not_mem_signs_of_isBlank {c : Char} (h : isBlank c = true) :
    ['.', 'e', 'E', '+', '-', '=', '#', '\\'].contains c = false :=
  eq_false_of_isBlank h (by decide +kernel)

/-- A blank that does not separate tokens is not read at all. -/
theorem readSign_of_isBlank {c : Char} (h : isBlank c = true) (rest : List Char) :
    readSign c rest = .error (.unexpectedCharacter c) := by
  have hsign : (sign? c).isSome = false :=
    eq_false_of_isBlank (p := fun c => (sign? c).isSome) h (by decide +kernel)
  have hequals : (signWithEquals? c).isSome = false :=
    eq_false_of_isBlank (p := fun c => (signWithEquals? c).isSome) h (by decide +kernel)
  rw [Option.isSome_eq_false_iff, Option.isNone_iff_eq_none] at hsign hequals
  simp [readSign, readShortSign, hsign, hequals]

/-- No token begins with a blank that does not separate tokens. -/
theorem readToken_of_isBlank {c : Char} (h : isBlank c = true) (rest : List Char) :
    readToken c rest = .error (.unexpectedCharacter c) := by
  simp only [readToken, isQuote_of_isBlank h, isDigit_of_isBlank h, isNameStart_of_isBlank h,
    Bool.false_eq_true, if_false, readSign_of_isBlank h]

/-- Blanks that can be read are no tokens. -/
theorem tokens_blanks {blanks : List Char} {ts : List Token} (hb : ∀ c ∈ blanks, isBlank c = true)
    (h : tokens blanks = .ok ts) : ts = [] := by
  induction blanks with
  | nil => exact (Except.ok.inj h).symm
  | cons c rest ih =>
    have hc : isBlank c = true := hb c (by simp)
    rw [tokens_cons] at h
    split at h
    · exact ih (fun d hd => hb d (by simp [hd])) h
    · split at h
      · exact (Except.ok.inj h).symm
      · simp [readToken_of_isBlank hc] at h

/-- A sign of one character is read without looking at what follows. -/
theorem readShortSign_append {c : Char} {cs after : List Char} {token : Token} (more : List Char)
    (h : readShortSign c (cs ++ more) = .ok (token, after)) :
    ∃ rest, readShortSign c cs = .ok (token, rest) ∧ after = rest ++ more := by
  unfold readShortSign at h ⊢
  split at h
  case h_1 sign hsign =>
    obtain ⟨rfl, rfl⟩ := Prod.mk.inj (Except.ok.inj h)
    exact ⟨cs, rfl, rfl⟩
  case h_2 => cases h

/-- A sign of two characters is read if an equals sign follows. -/
theorem readSign_equals {c : Char} {sign : Token} (h : signWithEquals? c = some sign)
    (after : List Char) : readSign c ('=' :: after) = .ok (sign, after) := by
  simp only [readSign, h]

/-- Otherwise the sign of one character is read. -/
theorem readSign_eq_short {c : Char} {rest : List Char}
    (h : ¬ ((signWithEquals? c).isSome = true ∧ rest.head? = some '=')) :
    readSign c rest = readShortSign c rest := by
  unfold readSign
  split
  case h_1 sign after hsign => exact absurd ⟨by rw [hsign]; rfl, rfl⟩ h
  case h_2 => rfl

section TrailingBlanks

variable {blanks : List Char} (hb : ∀ c ∈ blanks, isBlank c = true)
include hb

/-- Characters of a kind that no blank has end before blanks. -/
theorem takeWhile_append_blanks {p : Char → Bool} (hp : ∀ c, isBlank c = true → p c = false)
    (cs : List Char) : (cs ++ blanks).takeWhile p = cs.takeWhile p := by
  induction cs with
  | nil =>
    cases blanks with
    | nil => rfl
    | cons b bs => simp [hp b (hb b (by simp))]
  | cons c cs ih => simp [List.takeWhile_cons, ih]

/-- Blanks after such characters are left. -/
theorem dropWhile_append_blanks {p : Char → Bool} (hp : ∀ c, isBlank c = true → p c = false)
    (cs : List Char) : (cs ++ blanks).dropWhile p = cs.dropWhile p ++ blanks := by
  induction cs with
  | nil =>
    cases blanks with
    | nil => rfl
    | cons b bs => simp [hp b (hb b (by simp))]
  | cons c cs ih =>
    rw [List.cons_append, List.dropWhile_cons, List.dropWhile_cons, ih]
    split <;> rfl

/-- A string is not ended by blanks. -/
theorem stringBody_blanks {quote : Char} (hq : isQuote quote = true) (raw : Bool) :
    stringBody quote raw blanks = none := by
  have hne : ∀ c, isBlank c = true → c ≠ quote := by
    rintro c hc rfl
    rw [isQuote_of_isBlank hc] at hq
    cases hq
  fun_induction stringBody quote raw blanks with
  | case1 => rfl
  | case2 c rest ih => rw [ih fun d hd => hb d (by simp [hd]), Option.map_none]
  | case3 rest => exact absurd rfl (hne quote (hb quote (by simp)))
  | case4 c rest _ _ ih => rw [ih fun d hd => hb d (by simp [hd]), Option.map_none]

/-- Blanks after a string are left. -/
theorem stringBody_append_blanks {quote : Char} (hq : isQuote quote = true) {raw : Bool}
    {cs body after : List Char} (h : stringBody quote raw (cs ++ blanks) = some (body, after)) :
    ∃ rest, stringBody quote raw cs = some (body, rest) ∧ after = rest ++ blanks := by
  fun_induction stringBody quote raw cs generalizing body with
  | case1 => rw [List.nil_append, stringBody_blanks hb hq] at h; cases h
  | case2 c cs ih =>
    rw [List.cons_append, List.cons_append, stringBody, Option.map_eq_some_iff] at h
    obtain ⟨⟨body', after'⟩, hrec, heq⟩ := h
    obtain ⟨rfl, rfl⟩ := Prod.mk.inj heq
    obtain ⟨rest, hrest, rfl⟩ := ih hrec
    exact ⟨rest, by rw [hrest]; rfl, rfl⟩
  | case3 cs hesc =>
    have hstop : stringBody quote raw (quote :: cs ++ blanks) = some ([], cs ++ blanks) := by
      rw [List.cons_append, stringBody, if_pos rfl]
      rintro d ds rfl -
      exact absurd hq (by decide)
    rw [hstop] at h
    obtain ⟨rfl, rfl⟩ := Prod.mk.inj (Option.some.inj h)
    exact ⟨cs, rfl, rfl⟩
  | case4 c cs hesc hne ih =>
    cases cs with
    | nil =>
      -- a backslash at the end would protect the first of the blanks, but no quote comes after it
      have hnone : stringBody quote raw ([c] ++ blanks) = none := by
        by_cases hc : c = '\\' ∧ blanks ≠ []
        · obtain ⟨rfl, hblanks⟩ := hc
          obtain ⟨d, rest, rfl⟩ := List.exists_cons_of_ne_nil hblanks
          rw [List.singleton_append, stringBody,
            stringBody_blanks (fun e he => hb e (by simp [he])) hq, Option.map_none]
        · rw [List.singleton_append, stringBody, if_neg hne, stringBody_blanks hb hq, Option.map_none]
          rintro d rest rfl rfl
          exact hc ⟨rfl, by simp⟩
      rw [hnone] at h
      cases h
    | cons d ds =>
      rw [List.cons_append, stringBody, if_neg hne, Option.map_eq_some_iff] at h
      · obtain ⟨⟨body', after'⟩, hrec, heq⟩ := h
        obtain ⟨rfl, rfl⟩ := Prod.mk.inj heq
        obtain ⟨rest, hrest, rfl⟩ := ih hrec
        exact ⟨rest, by rw [hrest]; rfl, rfl⟩
      · rintro e es rfl heq
        exact hesc d ds rfl rfl

/-- Blanks after a fraction are left. -/
theorem splitFraction_append_blanks (cs : List Char) :
    splitFraction (cs ++ blanks) = ((splitFraction cs).1, (splitFraction cs).2 ++ blanks) := by
  cases cs with
  | nil =>
    cases blanks with
    | nil => rfl
    | cons b bs =>
      have hdot := not_mem_signs_of_isBlank (hb b (by simp))
      have hne : b ≠ '.' := by
        rintro rfl
        exact absurd hdot (by decide)
      simp [splitFraction, hne]
  | cons c cs =>
    by_cases hc : c = '.'
    · subst hc
      cases cs with
      | nil =>
        cases blanks with
        | nil => rfl
        | cons b bs =>
          have hblank := hb b (by simp)
          simp [splitFraction, isDigit_of_isBlank hblank, isAlphabetic_of_isBlank hblank]
      | cons d ds =>
        have hdigits := takeWhile_append_blanks hb (fun _ => isDigit_of_isBlank) (d :: ds)
        have hrest := dropWhile_append_blanks hb (fun _ => isDigit_of_isBlank) (d :: ds)
        rw [List.cons_append] at hdigits hrest
        simp only [List.cons_append, splitFraction, hdigits, hrest]
        split
        · rfl
        · split <;> rfl
    · have hdot : ∀ rest, c :: cs = '.' :: rest → False := fun _ heq => hc (List.cons.inj heq).1
      rw [List.cons_append, splitFraction, splitFraction]
      · rfl
      · exact hdot
      · exact fun _ heq => hc (List.cons.inj heq).1

/-- Blanks after a sign are left. -/
theorem splitSignChars_append_blanks (cs : List Char) :
    splitSignChars (cs ++ blanks) = ((splitSignChars cs).1, (splitSignChars cs).2 ++ blanks) := by
  cases cs with
  | nil =>
    cases blanks with
    | nil => rfl
    | cons b bs =>
      have hsigns := not_mem_signs_of_isBlank (hb b (by simp))
      have hb : ¬ (b = '+' ∨ b = '-') := by
        rintro (rfl | rfl) <;> exact absurd hsigns (by decide)
      simp [splitSignChars, hb]
  | cons c cs =>
    simp only [List.cons_append, splitSignChars]
    split <;> rfl

/-- Blanks after an exponent are left. -/
theorem splitExponent_append_blanks (cs : List Char) :
    splitExponent (cs ++ blanks) = ((splitExponent cs).1, (splitExponent cs).2 ++ blanks) := by
  cases cs with
  | nil =>
    cases blanks with
    | nil => rfl
    | cons b bs =>
      have hsigns := not_mem_signs_of_isBlank (hb b (by simp))
      have hb : ¬ (b = 'e' ∨ b = 'E') := by
        rintro (rfl | rfl) <;> exact absurd hsigns (by decide)
      simp [splitExponent, hb]
  | cons c cs =>
    simp only [List.cons_append, splitExponent, splitSignChars_append_blanks hb cs,
      takeWhile_append_blanks hb (fun _ => isDigit_of_isBlank),
      dropWhile_append_blanks hb (fun _ => isDigit_of_isBlank)]
    split
    · split <;> rfl
    · rfl

/-- Blanks after a number are left. -/
theorem readNumber_append_blanks {cs after : List Char} {token : Token}
    (h : readNumber (cs ++ blanks) = .ok (token, after)) :
    ∃ rest, readNumber cs = .ok (token, rest) ∧ after = rest ++ blanks := by
  have hdigit : ∀ c, isBlank c = true → isDigitOrUnderscore c = false := by
    intro c hc
    have hname := isNameChar_of_isBlank hc
    rw [isNameChar, Bool.or_eq_false_iff] at hname
    rw [isDigitOrUnderscore, isDigit_of_isBlank hc, Bool.false_or, hname.2]
  unfold readNumber at h ⊢
  simp only [takeWhile_append_blanks hb hdigit, dropWhile_append_blanks hb hdigit,
    splitFraction_append_blanks hb, splitExponent_append_blanks hb] at h
  split at h
  case h_1 number hnumber =>
    obtain ⟨rfl, rfl⟩ := Prod.mk.inj (Except.ok.inj h)
    exact ⟨_, by simp only [hnumber], rfl⟩
  case h_2 => cases h

/-- Blanks after an operator or a bracket are left. -/
theorem readSign_append_blanks {c : Char} {cs after : List Char} {token : Token}
    (h : readSign c (cs ++ blanks) = .ok (token, after)) :
    ∃ rest, readSign c cs = .ok (token, rest) ∧ after = rest ++ blanks := by
  by_cases hequals : (signWithEquals? c).isSome = true ∧ cs.head? = some '='
  · obtain ⟨hsome, hhead⟩ := hequals
    obtain ⟨sign, hsign⟩ := Option.isSome_iff_exists.mp hsome
    obtain ⟨ds, rfl⟩ := List.head?_eq_some_iff.mp hhead
    rw [List.cons_append, readSign_equals hsign] at h
    obtain ⟨rfl, rfl⟩ := Prod.mk.inj (Except.ok.inj h)
    exact ⟨ds, readSign_equals hsign ds, rfl⟩
  · have happend : ¬ ((signWithEquals? c).isSome = true ∧ (cs ++ blanks).head? = some '=') := by
      rintro ⟨hsome, hhead⟩
      cases cs with
      | nil =>
        have hb : '=' ∈ blanks := List.mem_of_mem_head? (by simpa using hhead)
        exact absurd (not_mem_signs_of_isBlank (‹∀ c ∈ blanks, isBlank c = true› _ hb)) (by decide)
      | cons d ds => exact hequals ⟨hsome, by simpa using hhead⟩
    rw [readSign_eq_short happend] at h
    rw [readSign_eq_short hequals]
    exact readShortSign_append blanks h

/-- A string does not reach into blanks at the end of a line. -/
theorem readString_append_blanks {quote : Char} {raw : Bool} {cs after : List Char} {token : Token}
    (hq : isQuote quote = true) (h : readString quote raw (cs ++ blanks) = .ok (token, after)) :
    ∃ rest, readString quote raw cs = .ok (token, rest) ∧ after = rest ++ blanks := by
  unfold readString at h ⊢
  split at h
  case h_1 body rest hbody =>
    obtain ⟨rfl, rfl⟩ := Prod.mk.inj (Except.ok.inj h)
    obtain ⟨rest, hrest, heq⟩ := stringBody_append_blanks hb hq hbody
    exact ⟨rest, by rw [hrest], heq⟩
  case h_2 => cases h

/-- A token does not reach into blanks at the end of a line. -/
theorem readToken_append_blanks {c : Char} {cs after : List Char} {token : Token}
    (h : readToken c (cs ++ blanks) = .ok (token, after)) :
    ∃ rest, readToken c cs = .ok (token, rest) ∧ after = rest ++ blanks := by
  unfold readToken at h ⊢
  by_cases hquote : isQuote c = true
  · rw [if_pos hquote] at h ⊢
    exact readString_append_blanks hb hquote h
  · rw [if_neg hquote] at h ⊢
    by_cases hdigit : c.isDigit = true
    · rw [if_pos hdigit] at h ⊢
      rw [← List.cons_append] at h
      exact readNumber_append_blanks hb h
    · rw [if_neg hdigit] at h ⊢
      by_cases hname : isNameStart c = true
      · rw [if_pos hname] at h ⊢
        cases cs with
        | nil =>
          cases blanks with
          | nil => exact ⟨after, h, (List.append_nil _).symm⟩
          | cons b bs =>
            -- a single letter before blanks is the whole name
            have hblank := hb b (by simp)
            simp only [List.nil_append, isQuote_of_isBlank hblank, isNameChar_of_isBlank hblank,
              Bool.and_false, Bool.false_eq_true, if_false, not_false_eq_true,
              List.takeWhile_cons_of_neg, List.dropWhile_cons_of_neg] at h
            obtain ⟨rfl, rfl⟩ := Prod.mk.inj (Except.ok.inj h)
            exact ⟨[], rfl, rfl⟩
        | cons d ds =>
          have htake := takeWhile_append_blanks hb (fun _ => isNameChar_of_isBlank) (d :: ds)
          have hdrop := dropWhile_append_blanks hb (fun _ => isNameChar_of_isBlank) (d :: ds)
          rw [List.cons_append] at htake hdrop
          simp only [List.cons_append, htake, hdrop] at h ⊢
          split at h
          case isTrue hraw =>
            rw [if_pos hraw]
            exact readString_append_blanks hb (Bool.and_eq_true_iff.mp hraw).2 h
          case isFalse hraw =>
            rw [if_neg hraw]
            obtain ⟨rfl, rfl⟩ := Prod.mk.inj (Except.ok.inj h)
            exact ⟨_, rfl, rfl⟩
      · rw [if_neg hname] at h ⊢
        exact readSign_append_blanks hb h

/-- A line that can be read with blanks at its end is read the same without them. -/
theorem tokens_of_append_blanks (cs : List Char) {ts : List Token}
    (h : tokens (cs ++ blanks) = .ok ts) : tokens cs = .ok ts := by
  induction hlen : cs.length using Nat.strong_induction_on generalizing cs ts with
  | _ n ih =>
    cases cs with
    | nil => rw [tokens_blanks hb h, tokens_nil]
    | cons c rest =>
      rw [List.cons_append, tokens_cons] at h
      rw [tokens_cons]
      by_cases hspace : isSpace c = true
      · rw [if_pos hspace] at h ⊢
        exact ih rest.length (by simp [← hlen]) rest h rfl
      · rw [if_neg hspace] at h ⊢
        by_cases hcomment : c = '#'
        · rw [if_pos hcomment] at h ⊢
          exact h
        · rw [if_neg hcomment] at h ⊢
          split at h
          case h_1 => cases h
          case h_2 token after hread =>
            obtain ⟨after', hread', rfl⟩ := readToken_append_blanks hb hread
            have hshort := length_readToken hread'
            cases htokens : tokens (after' ++ blanks) with
            | error e => rw [htokens] at h; cases h
            | ok others =>
              rw [htokens] at h
              simp only [hread', ih after'.length (by simp [← hlen]; omega) after' htokens rfl]
              exact h

end TrailingBlanks

/-- A line that can be read with blanks before it is read the same without them. -/
theorem tokens_dropWhile_isBlank {line : List Char} {ts : List Token} (h : tokens line = .ok ts) :
    tokens (line.dropWhile isBlank) = .ok ts := by
  induction line with
  | nil => exact h
  | cons c rest ih =>
    by_cases hc : isBlank c = true
    · have hhash : c ≠ '#' := by
        rintro rfl
        exact absurd (not_mem_signs_of_isBlank hc) (by decide)
      rw [List.dropWhile_cons_of_pos hc]
      rw [tokens_cons, readToken_of_isBlank hc, if_neg hhash] at h
      split at h
      · exact ih h
      · cases h
    · rw [List.dropWhile_cons_of_neg hc]
      exact h

/-- A line that can be read is read the same without the blanks around it. -/
theorem tokens_trimChars {line : List Char} {ts : List Token} (h : tokens line = .ok ts) :
    tokens (trimChars line) = .ok ts := by
  have hdropped := tokens_dropWhile_isBlank h
  rw [← trimEnd_append_blankEnd (line.dropWhile isBlank)] at hdropped
  exact tokens_of_append_blanks (fun _ => isBlank_of_mem_blankEnd) _ hdropped

/-- A carriage return at the end of a line does not matter. -/
theorem tokens_dropReturn {line : List Char} {ts : List Token} (h : tokens line = .ok ts) :
    tokens (dropReturn line) = .ok ts := by
  rcases dropReturn_eq_or line with heq | heq
  · rwa [heq]
  · rw [heq] at h
    exact tokens_of_append_blanks (by simp [isBlank_return]) _ h

end TableScript.Script
