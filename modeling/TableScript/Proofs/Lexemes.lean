import TableScript.Proofs.Lexing
import Mathlib.Data.Nat.Digits.Defs

/-!
# What words, literals and numbers are read as

Each piece that the code of a chunk is made of is read as one token, and what follows it is read as if
it stood alone. For a name this asks that the next character cannot go on with it; the quotes of a
literal end it by themselves.

The converse for names: a name token has the characters of a word (`isWord_of_mem_tokens`), so the names
that scripts give to dataframes have no blanks, no quotes and no line feeds in them.
-/

namespace TableScript.Script

open Text

/-! ## Words -/

/-- The characters of a name: one that can begin it, then ones that it can go on with. -/
def IsWord : List Char → Prop
  | [] => False
  | c :: rest => isNameStart c = true ∧ ∀ d ∈ rest, isNameChar d = true

instance : DecidablePred IsWord
  | [] => inferInstanceAs (Decidable False)
  | c :: rest =>
    decidable_of_iff (isNameStart c = true ∧ rest.all isNameChar = true) (by rw [List.all_eq_true, IsWord])

/-- What follows a word and cannot be part of it. -/
def EndsWord (rest : List Char) : Prop :=
  ∀ c ∈ rest.head?, isNameChar c = false ∧ isQuote c = false

/-- A word has name characters only. -/
theorem IsWord.isNameChar {cs : List Char} (h : IsWord cs) {c : Char} (hc : c ∈ cs) :
    isNameChar c = true := by
  cases cs with
  | nil => cases hc
  | cons d ds =>
    rcases List.mem_cons.mp hc with rfl | hc
    · exact isNameChar_of_isNameStart h.1
    · exact h.2 c hc

/-- A word goes on with name characters. -/
theorem IsWord.append {cs more : List Char} (h : IsWord cs)
    (hmore : ∀ c ∈ more, Script.isNameChar c = true) : IsWord (cs ++ more) := by
  cases cs with
  | nil => exact h.elim
  | cons c rest =>
    refine ⟨h.1, fun d hd => ?_⟩
    rcases List.mem_append.mp hd with hd | hd
    · exact h.2 d hd
    · exact hmore d hd

/-- There is no line feed in a word. -/
theorem IsWord.newline_not_mem {cs : List Char} (h : IsWord cs) : '\n' ∉ cs := fun hmem => by
  have hname := h.isNameChar hmem
  rw [isNameChar_of_isBlank isBlank_newline] at hname
  cases hname

/-- No name begins with a digit. -/
theorem isDigit_of_isNameStart {c : Char} (h : isNameStart c = true) : c.isDigit = false := by
  by_contra hd
  have hdigit : c.isDigit = true := Bool.not_eq_false _ ▸ hd
  have hrange : 48 ≤ c.toNat ∧ c.toNat ≤ 57 := by
    simpa [Char.isDigit, UInt32.le_iff_toNat_le] using hdigit
  have hnone : ∀ n < 58, 48 ≤ n → isNameStart (Char.ofNat n) = false := by decide
  have hstart := hnone c.toNat (by omega) hrange.1
  rw [Char.ofNat_toNat, h] at hstart
  cases hstart

/-- A character that a name can begin with is none that it cannot begin with. -/
theorem ne_of_isNameStart {c d : Char} (h : isNameStart c = true) (hd : isNameStart d = false) :
    c ≠ d := by
  rintro rfl
  rw [h] at hd
  cases hd

/-- The first character of a word is none of those that are looked for before a name. -/
theorem readToken_of_isNameStart {c : Char} (h : isNameStart c = true) (rest : List Char)
    (hraw : ∀ q ∈ rest.head?, isQuote q = false) :
    readToken c rest = .ok (.name (String.ofList (c :: rest.takeWhile isNameChar)),
      rest.dropWhile isNameChar) := by
  have hquote : isQuote c = false := by
    simp [isQuote, ne_of_isNameStart h (show isNameStart '\'' = false by decide),
      ne_of_isNameStart h (show isNameStart '"' = false by decide)]
  unfold readToken
  rw [hquote, isDigit_of_isNameStart h, h]
  cases rest with
  | nil => rfl
  | cons d ds => simp [hraw d (by simp)]

/-- No name begins with a blank. -/
theorem isSpace_of_isNameStart {c : Char} (h : isNameStart c = true) : isSpace c = false := by
  simp [isSpace, ne_of_isNameStart h (show isNameStart ' ' = false by decide),
    ne_of_isNameStart h (show isNameStart '\t' = false by decide),
    ne_of_isNameStart h (show isNameStart '\r' = false by decide)]

/-- A word is taken up to where it ends. -/
theorem takeWhile_word_append {cs rest : List Char} (h : ∀ c ∈ cs, isNameChar c = true)
    (hrest : EndsWord rest) :
    (cs ++ rest).takeWhile isNameChar = cs ∧ (cs ++ rest).dropWhile isNameChar = rest := by
  induction cs with
  | nil =>
    cases rest with
    | nil => exact ⟨rfl, rfl⟩
    | cons d ds => simp [(hrest d (by simp)).1]
  | cons c cs ih =>
    have hc := h c (by simp)
    obtain ⟨htake, hdrop⟩ := ih fun d hd => h d (by simp [hd])
    rw [List.cons_append, List.takeWhile_cons_of_pos hc, List.dropWhile_cons_of_pos hc, htake, hdrop]
    exact ⟨rfl, rfl⟩

/-- A quotation mark does not stand in a name. -/
theorem not_isNameChar_of_isQuote {c : Char} (h : isQuote c = true) : isNameChar c = false := by
  rw [isQuote, Bool.or_eq_true, decide_eq_true_eq, decide_eq_true_eq] at h
  rcases h with rfl | rfl <;> decide

/-- After the first letter of a word stands no quotation mark, so it is not that of a raw string. -/
theorem not_isQuote_of_head? {c : Char} {cs rest : List Char} (h : IsWord (c :: cs))
    (hrest : EndsWord rest) : ∀ q ∈ (cs ++ rest).head?, isQuote q = false := by
  intro q hq
  cases cs with
  | nil => exact (hrest q hq).2
  | cons d ds =>
    obtain rfl : d = q := by simpa using hq
    by_contra hquote
    have hname := h.2 d (by simp)
    rw [not_isNameChar_of_isQuote (Bool.not_eq_false _ ▸ hquote)] at hname
    cases hname

/-- A word is read as a name. -/
theorem tokens_word_append {cs rest : List Char} (h : IsWord cs) (hrest : EndsWord rest) :
    tokens (cs ++ rest) = (tokens rest).map (.name (String.ofList cs) :: ·) := by
  cases cs with
  | nil => exact h.elim
  | cons c cs =>
    obtain ⟨htake, hdrop⟩ := takeWhile_word_append h.2 hrest
    have hread := readToken_of_isNameStart h.1 (cs ++ rest) (not_isQuote_of_head? h hrest)
    rw [htake, hdrop] at hread
    exact tokens_token (isSpace_of_isNameStart h.1)
      (ne_of_isNameStart h.1 (by decide)) hread

/-- A word by itself. -/
theorem tokens_word {s : String} (h : IsWord s.toList) : tokens s.toList = .ok [.name s] := by
  have hread : tokens (s.toList ++ []) = (tokens []).map (.name (String.ofList s.toList) :: ·) :=
    tokens_word_append h (by simp [EndsWord])
  rw [List.append_nil] at hread
  rw [hread, String.ofList_toList]
  rfl

/-- The same for a text. -/
theorem tokens_name_append {s : String} (h : IsWord s.toList) {rest : List Char}
    (hrest : EndsWord rest) : tokens (s.toList ++ rest) = (tokens rest).map (.name s :: ·) := by
  rw [tokens_word_append h hrest, String.ofList_toList]

/-- The token is none of those that have a text or a number. -/
def Token.IsSign : Token → Prop
  | .name _ => False
  | .int _ => False
  | .float _ => False
  | .str _ => False
  | _ => True

/-- What the token that begins with a character can be. -/
inductive Begins (c : Char) (rest after : List Char) : Token → Prop
  | string (s : String) : Begins c rest after (.str s)
  | number {t : Token} (digit : c.isDigit = true) (read : readNumber (c :: rest) = .ok (t, after)) :
      Begins c rest after t
  | word {s : String} (word : IsWord s.toList) : Begins c rest after (.name s)
  | sign {t : Token} (sign : t.IsSign) : Begins c rest after t

/-- A string begins with its quote. -/
theorem begins_of_readString {c quote : Char} {rest cs after : List Char} {raw : Bool} {t : Token}
    (h : readString quote raw cs = .ok (t, after)) : Begins c rest after t := by
  unfold readString at h
  split at h
  · obtain ⟨rfl, -⟩ := Prod.mk.inj (Except.ok.inj h)
    exact .string _
  · cases h

/-- What is read as a sign of one character is a sign. -/
theorem isSign_of_readShortSign {c : Char} {rest after : List Char} {t : Token}
    (h : readShortSign c rest = .ok (t, after)) : t.IsSign := by
  unfold readShortSign at h
  split at h
  case h_1 token htoken =>
    obtain ⟨rfl, -⟩ := Prod.mk.inj (Except.ok.inj h)
    unfold sign? at htoken
    split at htoken <;> cases htoken <;> trivial
  case h_2 => cases h

/-- What is read as a sign is one. -/
theorem isSign_of_readSign {c : Char} {rest after : List Char} {t : Token}
    (h : readSign c rest = .ok (t, after)) : t.IsSign := by
  unfold readSign at h
  split at h
  case h_1 token after htoken =>
    obtain ⟨rfl, -⟩ := Prod.mk.inj (Except.ok.inj h)
    unfold signWithEquals? at htoken
    split at htoken <;> cases htoken <;> trivial
  case h_2 => exact isSign_of_readShortSign h

/-- A token begins with the characters that it is read from. -/
theorem begins_of_readToken {c : Char} {rest after : List Char} {t : Token}
    (h : readToken c rest = .ok (t, after)) : Begins c rest after t := by
  unfold readToken at h
  split at h
  · exact begins_of_readString h
  · split at h
    case isTrue hdigit => exact .number hdigit h
    case isFalse =>
      split at h
      case isTrue hstart =>
        split at h
        case h_1 quote body =>
          split at h
          · exact begins_of_readString h
          · obtain ⟨rfl, -⟩ := Prod.mk.inj (Except.ok.inj h)
            refine .word ?_
            rw [String.toList_ofList]
            exact ⟨hstart, fun d hd => List.mem_takeWhile_imp hd⟩
        case h_2 =>
          obtain ⟨rfl, -⟩ := Prod.mk.inj (Except.ok.inj h)
          refine .word ?_
          rw [String.toList_ofList]
          exact ⟨hstart, by simp⟩
      case isFalse => exact .sign (isSign_of_readSign h)

/-- What holds of every token that is read where one begins holds of all tokens of a line. -/
theorem forall_mem_tokens {P : Token → Prop}
    (hread : ∀ c rest after t, readToken c rest = .ok (t, after) → P t) {line : List Char}
    {ts : List Token} (h : tokens line = .ok ts) : ∀ t ∈ ts, P t := by
  induction hlen : line.length using Nat.strong_induction_on generalizing line ts with
  | _ n ih =>
    cases line with
    | nil =>
      rw [tokens_nil] at h
      cases h
      exact List.forall_mem_nil _
    | cons c rest =>
      rw [tokens_cons] at h
      split at h
      · exact ih rest.length (by simp [← hlen]) h rfl
      · split at h
        · cases h
          exact List.forall_mem_nil _
        · split at h
          case h_1 => cases h
          case h_2 token after htoken =>
            have hshort := length_readToken htoken
            cases htokens : tokens after with
            | error e => rw [htokens] at h; cases h
            | ok others =>
              rw [htokens] at h
              cases h
              exact List.forall_mem_cons.mpr ⟨hread c rest after token htoken,
                ih after.length (by simp [← hlen]; omega) htokens rfl⟩

/-- A token that is read as a number is none that has a text. -/
theorem isNumber_of_readNumber {cs after : List Char} {t : Token} (h : readNumber cs = .ok (t, after)) :
    (∃ n, t = .int n) ∨ ∃ x, t = .float x := by
  unfold readNumber at h
  simp only at h
  split at h
  case h_1 token htoken =>
    obtain ⟨rfl, -⟩ := Prod.mk.inj (Except.ok.inj h)
    split at htoken
    · obtain ⟨n, -, rfl⟩ := Option.map_eq_some_iff.mp htoken
      exact Or.inl ⟨n, rfl⟩
    · obtain ⟨x, -, rfl⟩ := Option.map_eq_some_iff.mp htoken
      exact Or.inr ⟨x, rfl⟩
  case h_2 => cases h

/-- A name token has the characters of a word. -/
theorem isWord_of_mem_tokens {line : List Char} {ts : List Token} (h : tokens line = .ok ts)
    {s : String} (hs : .name s ∈ ts) : IsWord s.toList := by
  refine forall_mem_tokens (P := fun t => ∀ s, t = .name s → IsWord s.toList) ?_ h _ hs s rfl
  rintro c rest after t hread s rfl
  cases begins_of_readToken hread with
  | number _ hnumber =>
    rcases isNumber_of_readNumber hnumber with ⟨n, hn⟩ | ⟨x, hx⟩
    · cases hn
    · cases hx
  | word hword => exact hword
  | sign hsign => exact hsign.elim

/-- A text is read as itself exactly if it is a word. -/
theorem tokens_eq_name_iff (s : String) : tokens s.toList = .ok [.name s] ↔ IsWord s.toList :=
  ⟨fun h => isWord_of_mem_tokens h (by simp), tokens_word⟩

/-! ## Signs -/

/-- A sign of one character, which begins nothing else. -/
theorem tokens_sign {c : Char} (sign : Token) (hsign : sign? c = some sign)
    (hc : (isSpace c || c == '#' || isQuote c || c.isDigit || isNameStart c
      || (signWithEquals? c).isSome) = false) (rest : List Char) :
    tokens (c :: rest) = (tokens rest).map (sign :: ·) := by
  simp only [Bool.or_eq_false_iff, beq_eq_false_iff_ne] at hc
  obtain ⟨⟨⟨⟨⟨hspace, hhash⟩, hquote⟩, hdigit⟩, hstart⟩, hequals⟩ := hc
  refine tokens_token hspace hhash ?_
  have hshort : readSign c rest = readShortSign c rest := readSign_eq_short (by simp [hequals])
  simp only [readToken, hquote, hdigit, hstart, Bool.false_eq_true, if_false, hshort, readShortSign,
    hsign]

/-- An equals sign that no other follows. -/
theorem tokens_equals {rest : List Char} (h : rest.head? ≠ some '=') :
    tokens ('=' :: rest) = (tokens rest).map (.assign :: ·) := by
  refine tokens_token (by decide) (by decide) ?_
  have hshort : readSign '=' rest = readShortSign '=' rest :=
    readSign_eq_short fun hequals => h hequals.2
  have hstart : isNameStart '=' = false := by decide
  simp [readToken, isQuote, hstart, hshort, readShortSign, sign?]

/-! ## Literals -/

/-- A character in quotes stands for itself, whatever it is. -/
theorem stringBody_literalChar (c : Char) (rest : List Char) :
    stringBody '\'' false (literalChar c ++ rest) =
      (stringBody '\'' false rest).map fun (body, after) => (c :: body, after) := by
  unfold literalChar
  split
  case isTrue h => subst h; rfl
  case isFalse hbackslash =>
    split
    case isTrue h => subst h; rfl
    case isFalse hquote =>
      split
      case isTrue h => subst h; rfl
      case isFalse =>
        split
        case isTrue h => subst h; rfl
        case isFalse =>
          split
          case isTrue h => subst h; rfl
          case isFalse =>
            rw [List.singleton_append, stringBody, if_neg hquote]
            rintro d ds rfl -
            exact hbackslash rfl

/-- The characters of a literal are read up to its closing quote, and are those of the text. -/
theorem stringBody_literalChars (cs rest : List Char) :
    stringBody '\'' false (cs.flatMap literalChar ++ '\'' :: rest) = some (cs, rest) := by
  induction cs with
  | nil => rfl
  | cons c cs ih =>
    rw [List.flatMap_cons, List.append_assoc, stringBody_literalChar, ih, Option.map_some]

/-- A string literal is read as the text it was made from. -/
theorem tokens_literalChars_append (cs rest : List Char) :
    tokens (literalChars cs ++ rest) = (tokens rest).map (.str (String.ofList cs) :: ·) := by
  have happend : literalChars cs ++ rest = '\'' :: (cs.flatMap literalChar ++ '\'' :: rest) := by
    simp [literalChars]
  rw [happend]
  refine tokens_token (by decide) (by decide) ?_
  unfold readToken
  rw [if_pos (by decide), readString, stringBody_literalChars]

/-- The literal of a text is read as one token, whatever follows. -/
theorem tokens_stringLiteral_append (s : String) (rest : List Char) :
    tokens ((stringLiteral s).toList ++ rest) = (tokens rest).map (.str s :: ·) := by
  rw [stringLiteral, String.toList_ofList, tokens_literalChars_append, String.ofList_toList]

/-- A raw string ends at its first quote, unless a backslash stands before that. -/
theorem stringBody_raw (cs rest : List Char) (h : fitsRaw cs = true) :
    stringBody '\'' true (cs ++ '\'' :: rest) = some (cs, rest) := by
  induction hlen : cs.length using Nat.strong_induction_on generalizing cs with
  | _ n ih =>
    cases cs with
    | nil => rfl
    | cons c cs =>
      simp only [fitsRaw, List.all_cons, Bool.and_eq_true, decide_eq_true_eq] at h
      obtain ⟨⟨⟨⟨hquote, -⟩, -⟩, hall⟩, hlast⟩ := h
      by_cases hc : c = '\\'
      · subst hc
        cases cs with
        | nil => exact absurd rfl hlast
        | cons d ds =>
          rw [List.getLast?_cons_cons] at hlast
          rw [List.all_cons, Bool.and_eq_true] at hall
          have hfits : fitsRaw ds = true := by
            rw [fitsRaw, hall.2, Bool.true_and, decide_eq_true_eq]
            intro hds
            cases ds with
            | nil => cases hds
            | cons e es => exact hlast (by rw [List.getLast?_cons_cons]; exact hds)
          rw [List.cons_append, List.cons_append, stringBody,
            ih ds.length (by rw [← hlen]; simp only [List.length_cons]; omega) ds hfits rfl]
          rfl
      · have hfits : fitsRaw cs = true := by
          rw [fitsRaw, hall, Bool.true_and, decide_eq_true_eq]
          intro hcs
          cases cs with
          | nil => cases hcs
          | cons d ds => exact hlast (by rw [List.getLast?_cons_cons]; exact hcs)
        rw [List.cons_append, stringBody, if_neg hquote,
          ih cs.length (by simp [← hlen]) cs hfits rfl]
        · rfl
        · rintro d ds rfl -
          exact hc rfl

/-- A path is read as itself, in a raw string or in another. -/
theorem tokens_pathLiteral_append (path : String) (rest : List Char) :
    tokens ((pathLiteral path).toList ++ rest) = (tokens rest).map (.str path :: ·) := by
  rw [pathLiteral, String.toList_ofList, pathChars]
  split
  case isTrue hfits =>
    have happend : 'r' :: '\'' :: (path.toList ++ ['\'']) ++ rest =
        'r' :: '\'' :: (path.toList ++ '\'' :: rest) := by simp
    rw [happend]
    refine tokens_token (by decide) (by decide) ?_
    have hstart : isNameStart 'r' = true := by decide
    have hquote : isQuote '\'' = true := by decide
    have hdigit : Char.isDigit 'r' = false := by decide
    simp only [readToken, show isQuote 'r' = false by decide, hdigit, hstart, hquote, if_true,
      Bool.false_eq_true, if_false, decide_true, Bool.true_or, Bool.and_self, readString,
      stringBody_raw _ rest hfits, String.ofList_toList]
  case isFalse => rw [tokens_literalChars_append, String.ofList_toList]

/-- A character of a literal is one of the text, or one that escapes are made of. -/
theorem mem_literalChar {c d : Char} (h : c ∈ literalChar d) :
    c ∈ ['\\', '\'', 'n', 't', 'r'] ∨ (c = d ∧ d ∉ ['\n', '\r']) := by
  have hescape : ∀ e ∈ ['\\', '\'', 'n', 't', 'r'], c ∈ ['\\', e] →
      c ∈ ['\\', '\'', 'n', 't', 'r'] := by
    rintro e he hmem
    rcases List.mem_cons.mp hmem with rfl | hmem
    · simp
    · exact List.mem_singleton.mp hmem ▸ he
  unfold literalChar at h
  split at h
  · exact Or.inl (hescape _ (by simp) h)
  · split at h
    · exact Or.inl (hescape _ (by simp) h)
    · split at h
      · exact Or.inl (hescape _ (by simp) h)
      case isFalse hnewline =>
        split at h
        · exact Or.inl (hescape _ (by simp) h)
        · split at h
          · exact Or.inl (hescape _ (by simp) h)
          case isFalse hreturn =>
            exact Or.inr ⟨List.mem_singleton.mp h, by simp [hnewline, hreturn]⟩

section EndsOfLines

variable {c : Char} (hc : c ∈ ['\n', '\r'])
include hc

/-- No literal has a line feed or a carriage return in it. -/
theorem not_mem_literalChars (cs : List Char) : c ∉ literalChars cs := by
  have hends : ∀ c ∈ ['\n', '\r'], c ∉ ['\\', '\'', 'n', 't', 'r'] := by simp
  have hescape := hends c hc
  have hquote : c ≠ '\'' := fun heq => hescape (by simp [heq])
  simp only [literalChars, List.mem_cons, List.mem_append, List.mem_flatMap, List.not_mem_nil, or_false,
    not_or]
  refine ⟨hquote, ?_, hquote⟩
  rintro ⟨d, -, hmem⟩
  rcases mem_literalChar hmem with hmem | ⟨rfl, hd⟩
  · exact hescape hmem
  · exact hd hc

/-- A character that no literal has as it is is not in the literal of a text. -/
theorem not_mem_stringLiteral (s : String) : c ∉ (stringLiteral s).toList := by
  rw [stringLiteral, String.toList_ofList]
  exact not_mem_literalChars hc _

/-- Nor is it in the literal of a path. -/
theorem not_mem_pathLiteral (path : String) : c ∉ (pathLiteral path).toList := by
  rw [pathLiteral, String.toList_ofList, pathChars]
  split
  case isTrue hfits =>
    rw [fitsRaw, Bool.and_eq_true, List.all_eq_true] at hfits
    have hpath : c ∉ path.toList := fun hmem => by
      have hplain := hfits.1 c hmem
      simp only [List.mem_cons, List.not_mem_nil, or_false] at hc
      rcases hc with rfl | rfl <;> exact absurd hplain (by decide)
    have hends : ∀ c ∈ ['\n', '\r'], c ≠ 'r' ∧ c ≠ '\'' := by simp
    simp [hpath, hends c hc]
  case isFalse => exact not_mem_literalChars hc _

end EndsOfLines

/-! ## Numbers -/

/-- The value of digits is that of the number they write. -/
theorem digitsValue_eq (high : Nat) (cs : List Char) :
    Decimal.digitsValue high cs = Nat.ofDigitChars 10 cs high := by
  induction cs generalizing high with
  | nil => rfl
  | cons c cs ih =>
    have hstep : Decimal.digitsValue high (c :: cs) =
        Decimal.digitsValue (10 * high + (c.toNat - '0'.toNat)) cs := by
      rw [Nat.mul_comm]
      rfl
    rw [hstep, ih, Nat.ofDigitChars_cons]

/-- What cannot go on with a number. -/
def EndsNumber (rest : List Char) : Prop :=
  ∀ c ∈ rest.head?, (isDigitOrUnderscore c || ['.', 'e', 'E'].contains c) = false

/-- What ends a number is not taken for a part of it. -/
theorem EndsNumber.splits {rest : List Char} (h : EndsNumber rest) :
    rest.takeWhile isDigitOrUnderscore = [] ∧ rest.dropWhile isDigitOrUnderscore = rest ∧
      splitFraction rest = ([], rest) ∧ splitExponent rest = ([], rest) := by
  cases rest with
  | nil => exact ⟨rfl, rfl, rfl, rfl⟩
  | cons c cs =>
    have hc := h c (by simp)
    rw [Bool.or_eq_false_iff] at hc
    have hdot : c ≠ '.' := by rintro rfl; exact absurd hc.2 (by decide)
    have he : ¬ (c = 'e' ∨ c = 'E') := by rintro (rfl | rfl) <;> exact absurd hc.2 (by decide)
    exact ⟨by simp [hc.1], by simp [hc.1], by simp [splitFraction, hdot], by simp [splitExponent, he]⟩

/-- There are no underscores among digits. -/
theorem filter_digits {cs : List Char} (h : ∀ c ∈ cs, c.isDigit = true) :
    cs.filter (· ≠ '_') = cs := by
  refine List.filter_eq_self.mpr fun c hc => ?_
  have : c ≠ '_' := by
    rintro rfl
    exact absurd (h _ hc) (by decide)
  simpa using this

/-- Digits are read as the number they are, if it has 64 bits. -/
theorem readInt64?_toDigits (n : Nat) : Decimal.readInt64? (Nat.toDigits 10 n) = Decimal.int64? n := by
  have hdigits : ∀ c ∈ Nat.toDigits 10 n, c.isDigit = true :=
    fun c hc => Nat.isDigit_of_mem_toDigits (by decide) (by decide) hc
  obtain ⟨c, rest, hcons⟩ := List.exists_cons_of_ne_nil (Nat.toDigits_ne_nil (n := n) (b := 10))
  have hc : c.isDigit = true := hdigits c (by simp [hcons])
  have hsplit : Decimal.splitSign (Nat.toDigits 10 n) = (false, Nat.toDigits 10 n) := by
    rw [hcons, Decimal.splitSign]
    · rintro _ heq
      obtain ⟨rfl, rfl⟩ := List.cons.inj heq
      exact absurd hc (by decide)
    · rintro _ heq
      obtain ⟨rfl, rfl⟩ := List.cons.inj heq
      exact absurd hc (by decide)
  have hempty : (Nat.toDigits 10 n).isEmpty = false := by rw [hcons]; rfl
  rw [Decimal.readInt64?, Decimal.readInt?, hsplit]
  simp only [hempty, List.all_eq_true.mpr hdigits, digitsValue_eq, Nat.ofDigitChars_ten_toDigits,
    Bool.not_false, Bool.and_self, if_true, Bool.false_eq_true, if_false, Option.bind_some]

/-- Digits are read as a whole number, or are no number at all. -/
theorem readNumber_digits (n : Nat) {rest : List Char} (hrest : EndsNumber rest) :
    readNumber (Nat.toDigits 10 n ++ rest) =
      (Decimal.int64? n).elim (.error (.invalidNumber (toString n))) fun k => .ok (.int k, rest) := by
  have hdigits : ∀ c ∈ Nat.toDigits 10 n, c.isDigit = true :=
    fun c hc => Nat.isDigit_of_mem_toDigits (by decide) (by decide) hc
  have hwhole : ∀ c ∈ Nat.toDigits 10 n, isDigitOrUnderscore c = true :=
    fun c hc => by rw [isDigitOrUnderscore, hdigits c hc, Bool.true_or]
  have htext : String.ofList (Nat.toDigits 10 n) = toString n := by
    rw [Nat.toString_eq_repr, ← Nat.toList_repr, String.ofList_toList]
  obtain ⟨htake, hdrop, hfraction, hexponent⟩ := hrest.splits
  unfold readNumber
  simp only [List.takeWhile_append_of_pos hwhole, List.dropWhile_append_of_pos hwhole, htake, hdrop,
    hfraction, hexponent, List.append_nil, filter_digits hdigits, readInt64?_toDigits, List.isEmpty_nil,
    Bool.and_self, if_true, htext]
  cases Decimal.int64? n <;> rfl

/-- Where the first character is a digit, a number is read. -/
theorem tokens_digit_append {cs : List Char} (hne : cs ≠ []) (hcs : ∀ c ∈ cs.head?, c.isDigit = true)
    (rest : List Char) :
    tokens (cs ++ rest) =
      (readNumber (cs ++ rest)).bind fun read => (tokens read.2).map (read.1 :: ·) := by
  obtain ⟨c, cs, rfl⟩ := List.exists_cons_of_ne_nil hne
  have hc : c.isDigit = true := hcs c rfl
  have hother : ∀ d, d.isDigit = false → c ≠ d := by
    rintro d hd rfl
    rw [hc] at hd
    cases hd
  have hspace : isSpace c = false := by
    simp [isSpace, hother ' ' (by decide), hother '\t' (by decide), hother '\r' (by decide)]
  have hquote : isQuote c = false := by
    simp [isQuote, hother '\'' (by decide), hother '"' (by decide)]
  have hread : readToken c (cs ++ rest) = readNumber (c :: (cs ++ rest)) := by
    simp only [readToken, hquote, hc, Bool.false_eq_true, if_false, if_true]
  rw [List.cons_append, tokens_cons, hspace, if_neg Bool.false_ne_true, if_neg (hother _ (by decide)),
    hread]
  cases readNumber (c :: (cs ++ rest)) <;> rfl

/-- A number in digits, if it has 64 bits. -/
theorem tokens_toString_append (n : Nat) {rest : List Char} (hrest : EndsNumber rest) :
    tokens ((toString n).toList ++ rest) =
      (Decimal.int64? n).elim (.error (.invalidNumber (toString n)))
        fun k => (tokens rest).map (.int k :: ·) := by
  rw [Nat.toString_eq_repr, Nat.toList_repr, tokens_digit_append Nat.toDigits_ne_nil
    fun c hc => Nat.isDigit_of_mem_toDigits (by decide) (by decide) (List.mem_of_head? hc),
    readNumber_digits n hrest]
  cases Decimal.int64? n <;> rfl

/-- A number in digits is read as that number. -/
theorem tokens_digits_append {n : Nat} (hn : n < 2 ^ 63) {rest : List Char}
    (hrest : EndsNumber rest) :
    tokens ((toString n).toList ++ rest) = (tokens rest).map (.int (Int64.ofInt n) :: ·) := by
  have hword : Decimal.int64? (n : Int) = some (Int64.ofInt n) :=
    Decimal.int64?_eq_some_iff.mpr (Int64.toInt_ofInt_of_le (by omega) (by omega))
  rw [tokens_toString_append n hrest, hword, Option.elim_some]

end TableScript.Script
