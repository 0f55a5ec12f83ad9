import TableScript.Proofs.Shortest
import TableScript.Proofs.Lexemes
import TableScript.Value.Text

/-!
# Numbers written and read

The text of a finite floating point number, in whichever format, is read as that number
(`readFloat?_text`, `readFloat?_wholeText`), and the text of a whole number as that whole number
(`readInt?_toString`). A format only decides where the point stands in the digits of the shortest
decimal and whether there is an exponent; in each of the four layouts the digits and the exponent
together are the decimal again (`Denotes`), and the decimal rounds to the number.

A whole number and a floating point number never have one text: every text of the latter that ends
up in a table has a point or an exponent (`marked_text`, `marked_floatText`). For a number that is
not whole this is so because its shortest decimal has a fraction; one without would lie too far from
it.
-/

namespace TableScript.Decimal

/-! ## Digits -/

/-- All characters are digits, and there is one. -/
structure IsNumeral (cs : List Char) : Prop where
  ne_nil : cs ≠ []
  digit : ∀ c ∈ cs, c.isDigit = true

/-- The decimal digits of a number are digits, and there is one at least. -/
theorem isNumeral_toDigits (n : ℕ) : IsNumeral (Nat.toDigits 10 n) :=
  ⟨Nat.toDigits_ne_nil, fun _ hc => Nat.isDigit_of_mem_toDigits (by decide) (by decide) hc⟩

/-- The decimal digits of a number have its value. -/
theorem digitsValue_toDigits (n : ℕ) : digitsValue 0 (Nat.toDigits 10 n) = n := by
  rw [Script.digitsValue_eq, Nat.ofDigitChars_ten_toDigits]

/-- Digits that follow others go on from the value of these. -/
theorem digitsValue_append (high : ℕ) (cs ds : List Char) :
    digitsValue high (cs ++ ds) = digitsValue (digitsValue high cs) ds := by
  simp only [Script.digitsValue_eq, Nat.ofDigitChars_append]

/-- Every zero that follows multiplies by ten. -/
theorem digitsValue_zeros (high n : ℕ) :
    digitsValue high (List.replicate n '0') = high * 10 ^ n := by
  rw [Script.digitsValue_eq, Nat.ofDigitChars_replicate_zero, Nat.mul_comm]

/-- The text of some zeros is that many zeros. -/
theorem toList_zeros (n : ℕ) : (zeros n).toList = List.replicate n '0' := String.toList_ofList

/-- A zero is a digit. -/
theorem isDigit_of_mem_zeros {n : ℕ} {c : Char} (h : c ∈ List.replicate n '0') :
    c.isDigit = true := by
  rw [(List.mem_replicate.mp h).2]
  rfl

/-- A natural number is written as its decimal digits. -/
theorem toList_toString (n : ℕ) : (toString n).toList = Nat.toDigits 10 n := by
  rw [Nat.toString_eq_repr, Nat.toList_repr]

/-! ## Reading the layouts -/

/-- The sign of a text that begins with a digit is positive. -/
theorem splitSign_digit {c : Char} (hc : c.isDigit = true) (cs : List Char) :
    splitSign (c :: cs) = (false, c :: cs) := by
  unfold splitSign
  split
  case h_1 heq =>
    cases heq
    exact absurd hc (by decide)
  case h_2 heq =>
    cases heq
    exact absurd hc (by decide)
  case h_3 => rfl

/-- A numeral is not empty and has digits only, which is what reading asks for. -/
theorem IsNumeral.accepted {cs : List Char} (h : IsNumeral cs) :
    (!cs.isEmpty && cs.all Char.isDigit) = true := by
  rw [Bool.and_eq_true, Bool.not_eq_true', List.isEmpty_eq_false_iff]
  exact ⟨h.ne_nil, List.all_eq_true.mpr h.digit⟩

/-- Digits are read as the whole number that they are. -/
theorem readInt?_numeral {cs : List Char} (h : IsNumeral cs) :
    readInt? cs = some (digitsValue 0 cs : ℤ) := by
  obtain ⟨c, rest, rfl⟩ := List.exists_cons_of_ne_nil h.ne_nil
  unfold readInt?
  rw [splitSign_digit (h.digit c List.mem_cons_self)]
  exact if_pos h.accepted

/-- A numeral after a minus sign is a negative number. -/
theorem readInt?_minus {cs : List Char} (h : IsNumeral cs) :
    readInt? ('-' :: cs) = some (-(digitsValue 0 cs : ℤ)) := if_pos h.accepted

/-- A numeral after a plus sign is the number itself. -/
theorem readInt?_plus {cs : List Char} (h : IsNumeral cs) :
    readInt? ('+' :: cs) = some (digitsValue 0 cs : ℤ) := if_pos h.accepted

/-- A negative number is written with a minus sign. -/
theorem toList_toString_negSucc (n : ℕ) :
    (toString (Int.negSucc n)).toList = '-' :: (toString (n + 1)).toList := by
  change ("-" ++ toString (n + 1)).toList = _
  rw [String.toList_append]
  rfl

/-- The text of a whole number is read as that number. -/
theorem readInt?_toString (k : ℤ) : readInt? (toString k).toList = some k := by
  cases k with
  | ofNat n =>
    have htext : (toString (Int.ofNat n)).toList = Nat.toDigits 10 n := toList_toString n
    rw [htext, readInt?_numeral (isNumeral_toDigits n), digitsValue_toDigits]
    rfl
  | negSucc n =>
    rw [toList_toString_negSucc, toList_toString, readInt?_minus (isNumeral_toDigits (n + 1)),
      digitsValue_toDigits]
    rfl

/-- A digit has no other case. -/
theorem toLower_digit {c : Char} (hc : c.isDigit = true) : c.toLower = c := by
  unfold Char.toLower
  split
  case isTrue h =>
    simp only [Char.isDigit, Bool.and_eq_true, decide_eq_true_eq, ge_iff_le,
      UInt32.le_iff_toNat_le] at hc h
    have hhigh : c.val.toNat ≤ 57 := hc.2
    have hlow : 65 ≤ c.val.toNat := h.1
    omega
  case isFalse => rfl

/-- A word that begins with another character is another word, whatever the case of its letters. -/
theorem word_ne {c d : Char} (h : c.toLower ≠ d) (cs ds : List Char) :
    String.ofList ((c :: cs).map Char.toLower) ≠ String.ofList (d :: ds) := by
  intro heq
  have hlist := String.ofList_injective heq
  rw [List.map_cons] at hlist
  exact h (List.cons.inj hlist).1

/-- What ends the digits of a number. -/
def EndsDigits (tail : List Char) : Prop := ∀ c ∈ tail.head?, c.isDigit = false

/-- Digits end at the end of the text. -/
theorem endsDigits_nil : EndsDigits [] := fun _ hc => nomatch hc

/-- Digits are taken up to where they end. -/
theorem takeWhile_digits {cs tail : List Char} (hcs : ∀ c ∈ cs, c.isDigit = true)
    (htail : EndsDigits tail) :
    (cs ++ tail).takeWhile Char.isDigit = cs ∧ (cs ++ tail).dropWhile Char.isDigit = tail := by
  rw [List.takeWhile_append_of_pos hcs, List.dropWhile_append_of_pos hcs]
  cases tail with
  | nil => exact ⟨List.append_nil _, rfl⟩
  | cons c tail =>
    have hc := htail c rfl
    simp [hc]

/-- The digits after a point, if there is one, and what follows them. -/
def fractionOf : List Char → List Char × List Char
  | '.' :: after => (after.takeWhile Char.isDigit, after.dropWhile Char.isDigit)
  | rest => ([], rest)

/-- Without a point there is no fraction. -/
theorem fractionOf_none {rest : List Char} (h : ∀ after, rest = '.' :: after → False) :
    fractionOf rest = ([], rest) := by
  unfold fractionOf
  split
  · exact absurd rfl (h _)
  · rfl

/-- What is none of the words is read by its parts. -/
theorem readUnsigned?_parts {c : Char} (hi : c.toLower ≠ 'i') (hn : c.toLower ≠ 'n')
    (cs : List Char)
    {whole rest : List Char} (htake : (c :: cs).takeWhile Char.isDigit = whole)
    (hdrop : (c :: cs).dropWhile Char.isDigit = rest) :
    readUnsigned? (c :: cs) =
      if whole.isEmpty && (fractionOf rest).1.isEmpty then none
      else (readExponent? (fractionOf rest).2).map fun exponent =>
        nearestFloat (digitsValue 0 (whole ++ (fractionOf rest).1))
          (exponent - (fractionOf rest).1.length) := by
  have hinf : String.ofList ((c :: cs).map Char.toLower) ≠ "inf" := word_ne hi cs _
  have hinfinity : String.ofList ((c :: cs).map Char.toLower) ≠ "infinity" := word_ne hi cs _
  have hnan : String.ofList ((c :: cs).map Char.toLower) ≠ "nan" := word_ne hn cs _
  have hword : ¬ (String.ofList ((c :: cs).map Char.toLower) = "inf" ||
      String.ofList ((c :: cs).map Char.toLower) = "infinity") = true := by
    simp only [Bool.or_eq_true, decide_eq_true_eq]
    exact not_or.mpr ⟨hinf, hinfinity⟩
  unfold readUnsigned?
  dsimp only
  rw [if_neg hword, if_neg hnan, htake, hdrop]
  clear hdrop
  split
  case h_1 => rfl
  case h_2 hnone =>
    rw [fractionOf_none hnone]

/-- A number that begins with a digit is read by its parts. -/
theorem readUnsigned?_digits {c : Char} (hc : c.isDigit = true) (cs : List Char)
    {whole rest : List Char} (htake : (c :: cs).takeWhile Char.isDigit = whole)
    (hdrop : (c :: cs).dropWhile Char.isDigit = rest) :
    readUnsigned? (c :: cs) = (readExponent? (fractionOf rest).2).map fun exponent =>
      nearestFloat (digitsValue 0 (whole ++ (fractionOf rest).1))
        (exponent - (fractionOf rest).1.length) := by
  have hletter : ∀ d : Char, d.isDigit = false → c.toLower ≠ d := by
    intro d hd hcd
    rw [toLower_digit hc] at hcd
    rw [hcd, hd] at hc
    cases hc
  have hwhole : whole.isEmpty = false := by
    rw [← htake, List.takeWhile_cons_of_pos hc]
    rfl
  rw [readUnsigned?_parts (hletter 'i' (by decide)) (hletter 'n' (by decide)) cs htake hdrop,
    hwhole]
  rfl

/-- A number with a point. -/
theorem readUnsigned?_point {whole fraction tail : List Char} (hwhole : IsNumeral whole)
    (hfraction : ∀ c ∈ fraction, c.isDigit = true) (htail : EndsDigits tail) :
    readUnsigned? (whole ++ '.' :: (fraction ++ tail)) = (readExponent? tail).map fun exponent =>
      nearestFloat (digitsValue 0 (whole ++ fraction)) (exponent - fraction.length) := by
  have hends : EndsDigits ('.' :: (fraction ++ tail)) := by
    intro c hc
    cases hc
    decide
  obtain ⟨htake, hdrop⟩ := takeWhile_digits hwhole.digit hends
  have hpoint : fractionOf ('.' :: (fraction ++ tail)) = (fraction, tail) :=
    Prod.ext (takeWhile_digits hfraction htail).1 (takeWhile_digits hfraction htail).2
  obtain ⟨c, cs, rfl⟩ := List.exists_cons_of_ne_nil hwhole.ne_nil
  rw [List.cons_append] at htake hdrop ⊢
  rw [readUnsigned?_digits (hwhole.digit c List.mem_cons_self) _ htake hdrop, hpoint]

/-- A number without a point. -/
theorem readUnsigned?_whole {whole tail : List Char} (hwhole : IsNumeral whole)
    (htail : EndsDigits tail) (hpoint : tail.head? ≠ some '.') :
    readUnsigned? (whole ++ tail) =
      (readExponent? tail).map fun exponent => nearestFloat (digitsValue 0 whole) exponent := by
  obtain ⟨htake, hdrop⟩ := takeWhile_digits hwhole.digit htail
  have hnone : fractionOf tail = ([], tail) := by
    refine fractionOf_none fun after htail => hpoint ?_
    rw [htail]
    rfl
  obtain ⟨c, cs, rfl⟩ := List.exists_cons_of_ne_nil hwhole.ne_nil
  rw [List.cons_append] at htake hdrop ⊢
  rw [readUnsigned?_digits (hwhole.digit c List.mem_cons_self) _ htake hdrop, hnone]
  simp

/-! ## Layouts of a decimal -/

/-- The text is read as a number nearest to `digits · 10 ^ exponent`, wherever its point stands. -/
def Denotes (text : String) (digits : ℕ) (exponent : ℤ) : Prop :=
  ∃ (d : ℕ) (k : ℤ), (d : ℚ) * 10 ^ k = digits * 10 ^ exponent ∧
    readUnsigned? text.toList = some (nearestFloat d k)

variable {digits : List Char} {exponent : ℤ}

/-- Zeros stand between the point and the digits. -/
theorem denotes_before (hdigits : IsNumeral digits) {n : ℕ} (hn : digits.length + exponent = -n) :
    Denotes ("0." ++ zeros n ++ String.ofList digits) (digitsValue 0 digits) exponent := by
  have htext : ("0." ++ zeros n ++ String.ofList digits).toList =
      ['0'] ++ '.' :: ((List.replicate n '0' ++ digits) ++ []) := by
    simp [String.toList_append, toList_zeros]
  have hfraction : ∀ c ∈ List.replicate n '0' ++ digits, c.isDigit = true := fun c hc =>
    (List.mem_append.mp hc).elim isDigit_of_mem_zeros (hdigits.digit c)
  have hvalue :
      digitsValue 0 (['0'] ++ (List.replicate n '0' ++ digits)) = digitsValue 0 digits := by
    have hzero : digitsValue 0 ['0'] * 10 ^ n = 0 := Nat.zero_mul _
    rw [digitsValue_append, digitsValue_append, digitsValue_zeros, hzero]
  refine ⟨_, _, ?_, by
    rw [htext, readUnsigned?_point ⟨by simp, by simp⟩ hfraction endsDigits_nil]
    rfl⟩
  rw [hvalue, List.length_append, List.length_replicate]
  congr 2
  omega

/-- The point stands among the digits. -/
theorem denotes_inside (hdigits : IsNumeral digits) {n : ℕ} (hn : digits.length + exponent = n)
    (hpos : n ≠ 0) (hlt : n < digits.length) :
    Denotes (String.ofList (digits.take n) ++ "." ++ String.ofList (digits.drop n))
      (digitsValue 0 digits) exponent := by
  have htext : (String.ofList (digits.take n) ++ "." ++ String.ofList (digits.drop n)).toList =
      digits.take n ++ '.' :: (digits.drop n ++ []) := by
    simp [String.toList_append]
  have hwhole : IsNumeral (digits.take n) := by
    refine ⟨?_, fun c hc => hdigits.digit c (List.mem_of_mem_take hc)⟩
    rw [ne_eq, List.take_eq_nil_iff, not_or]
    exact ⟨hpos, hdigits.ne_nil⟩
  have hfraction : ∀ c ∈ digits.drop n, c.isDigit = true := fun c hc =>
    hdigits.digit c (List.mem_of_mem_drop hc)
  refine ⟨_, _, ?_, by
    rw [htext, readUnsigned?_point hwhole hfraction endsDigits_nil]
    rfl⟩
  rw [List.take_append_drop, List.length_drop]
  congr 2
  omega

/-- Zeros stand between the digits and the point, if there is a point at all. -/
theorem denotes_after (hdigits : IsNumeral digits) {n : ℕ} (hn : exponent = n) (fraction : Bool) :
    Denotes (String.ofList digits ++ zeros n ++ (if fraction then ".0" else ""))
      (digitsValue 0 digits) exponent := by
  have hwhole : IsNumeral (digits ++ List.replicate n '0') :=
    ⟨List.append_ne_nil_of_left_ne_nil hdigits.ne_nil _, fun c hc =>
      (List.mem_append.mp hc).elim (hdigits.digit c) isDigit_of_mem_zeros⟩
  have hvalue : digitsValue 0 (digits ++ List.replicate n '0') = digitsValue 0 digits * 10 ^ n := by
    rw [digitsValue_append, digitsValue_zeros]
  cases fraction with
  | true =>
    have htext : (String.ofList digits ++ zeros n ++ (if true then ".0" else "")).toList =
        digits ++ List.replicate n '0' ++ '.' :: (['0'] ++ []) := by
      simp [String.toList_append, toList_zeros]
    have htenth : digitsValue 0 (digits ++ List.replicate n '0' ++ ['0']) =
        digitsValue 0 digits * 10 ^ n * 10 := by
      rw [digitsValue_append, hvalue]
      rfl
    refine ⟨_, _, ?_, by
      rw [htext, readUnsigned?_point hwhole (by simp) endsDigits_nil]
      rfl⟩
    rw [htenth, hn, List.length_singleton]
    norm_num [mul_assoc]
  | false =>
    have htext : (String.ofList digits ++ zeros n ++ (if false then ".0" else "")).toList =
        digits ++ List.replicate n '0' ++ [] := by
      simp [String.toList_append, toList_zeros]
    refine ⟨_, _, ?_, by
      rw [htext, readUnsigned?_whole hwhole endsDigits_nil (by simp)]
      rfl⟩
    rw [hvalue, hn]
    norm_num

/-- Digits around a point denote the number that was written with them. -/
theorem denotes_positionalText (format : FloatFormat) (hdigits : IsNumeral digits) :
    Denotes (positionalText format digits (digits.length + exponent)) (digitsValue 0 digits)
      exponent := by
  unfold positionalText
  dsimp only
  split
  case isTrue hpoint => exact denotes_before hdigits (by omega)
  case isFalse hpoint =>
    split
    case isTrue hinside => exact denotes_inside hdigits (by omega) (by omega) (by omega)
    case isFalse houtside => exact denotes_after hdigits (by omega) format.wholeFraction

/-- The exponent is written with its sign. -/
theorem readInt?_exponent (format : FloatFormat) (k : ℤ) :
    readInt? ((if k < 0 then "-" else if format.signedExponent then "+" else "") ++
      toString k.natAbs).toList = some k := by
  rw [String.toList_append, toList_toString]
  have hnumeral := isNumeral_toDigits k.natAbs
  have hvalue := digitsValue_toDigits k.natAbs
  split
  case isTrue hneg =>
    refine (readInt?_minus hnumeral).trans (congrArg some ?_)
    rw [hvalue]
    omega
  case isFalse hpos =>
    have hself : ((k.natAbs : ℕ) : ℤ) = k := by omega
    split
    · exact (readInt?_plus hnumeral).trans (by rw [hvalue, hself])
    · exact (readInt?_numeral hnumeral).trans (by rw [hvalue, hself])

/-- So do digits with an exponent. -/
theorem denotes_scientificText (format : FloatFormat) (hdigits : IsNumeral digits) :
    Denotes (scientificText format digits (digits.length + exponent - 1)) (digitsValue 0 digits)
      exponent := by
  obtain ⟨c, rest, rfl⟩ := List.exists_cons_of_ne_nil hdigits.ne_nil
  have hfirst : IsNumeral [c] := ⟨by simp, by simpa using hdigits.digit c List.mem_cons_self⟩
  have hrest : ∀ d ∈ rest, d.isDigit = true := fun d hd =>
    hdigits.digit d (List.mem_cons_of_mem c hd)
  obtain ⟨k, hk⟩ : ∃ k : ℤ, k = (c :: rest).length + exponent - 1 := ⟨_, rfl⟩
  obtain ⟨power, hpower⟩ : ∃ power, power =
      ((if k < 0 then "-" else if format.signedExponent then "+" else "") ++
      toString k.natAbs).toList := ⟨_, rfl⟩
  have hexponent : readExponent? ('e' :: power) = some k := by
    rw [hpower]
    exact readInt?_exponent format k
  have htail : EndsDigits ('e' :: power) := by
    intro d hd
    cases hd
    decide
  rw [← hk]
  -- a point stands only after the first of several digits
  cases rest with
  | nil =>
    have htext : (scientificText format [c] k).toList = [c] ++ 'e' :: power := by
      rw [hpower]
      simp [scientificText]
    refine ⟨_, _, ?_, by
      rw [htext, readUnsigned?_whole hfirst htail (by simp), hexponent]
      rfl⟩
    rw [hk, List.length_singleton]
    norm_num
  | cons d rest =>
    have htext : (scientificText format (c :: d :: rest) k).toList =
        [c] ++ '.' :: (d :: rest ++ 'e' :: power) := by
      rw [hpower]
      simp [scientificText]
    refine ⟨_, _, ?_, by
      rw [htext, readUnsigned?_point hfirst hrest htail, hexponent]
      rfl⟩
    rw [hk, List.length_cons (a := c), List.singleton_append]
    congr 2
    push_cast
    ring

/-! ## Texts of floating point numbers -/

variable {m : ℕ} {e : ℤ}

/-- A positive number is read from its text. -/
theorem readUnsigned?_positiveText (format : FloatFormat) (hc : Canonical m e) :
    readUnsigned? (format.positiveText m e).toList = some (ofParts .positive (.finite m e)) := by
  obtain ⟨hpos, hround⟩ := shortest_spec format.tie hc
  generalize hd : shortest format.tie m e = d at hpos hround
  have hdenotes : Denotes (format.positiveText m e) d.digits d.exponent := by
    have hnumeral := isNumeral_toDigits d.digits
    have hvalue := digitsValue_toDigits d.digits
    unfold FloatFormat.positiveText
    dsimp only
    rw [hd]
    generalize Nat.toDigits 10 d.digits = digits at *
    rw [← hvalue]
    exact iteInduction
      (motive := fun text : String => Denotes text (digitsValue 0 digits) d.exponent)
      (fun _ => denotes_positionalText format hnumeral)
      (fun _ => denotes_scientificText format hnumeral)
  obtain ⟨n, k, hvalue, hread⟩ := hdenotes
  rw [hread]
  refine congrArg some (nearestFloat_eq ?_ hc (hvalue ▸ hround))
  have hten (j : ℤ) : (0 : ℚ) < 10 ^ j := zpow_pos (by norm_num) j
  have hposq : (0 : ℚ) < n * 10 ^ k := by
    rw [hvalue]
    exact mul_pos (by exact_mod_cast Nat.pos_of_ne_zero hpos) (hten _)
  exact_mod_cast pos_of_mul_pos_left hposq (hten k).le

/-! ## Signs -/

variable {x : Float}

/-- What is read without a sign does not begin with one. -/
theorem splitSign_of_readUnsigned? {cs : List Char} {y : Float} (h : readUnsigned? cs = some y) :
    splitSign cs = (false, cs) := by
  unfold splitSign
  split
  case h_1 rest =>
    rw [readUnsigned?_parts (by decide) (by decide) rest rfl rfl] at h
    cases h
  case h_2 rest =>
    rw [readUnsigned?_parts (by decide) (by decide) rest rfl rfl] at h
    cases h
  case h_3 => rfl

/-- A sign in front of what is read. -/
def signText (x : Float) : String := if isNegative x then "-" else ""

/-- A sign in front of the text of a magnitude makes it that of the float. -/
theorem readFloat?_signed {cs : List Char}
    (h : readUnsigned? cs = some (ofParts .positive (magnitude x))) (hx : magnitude x ≠ .nan) :
    readFloat? ((signText x).toList ++ cs) = some x := by
  have hself := ofParts_parts x
  unfold signText
  by_cases hneg : isNegative x = true
  · have hsplit : splitSign ("-".toList ++ cs) = (true, cs) := rfl
    have hopposite : -ofParts .positive (magnitude x) = x := by
      rw [neg_eq, signOf_ofParts _ (proper_magnitude x) hx,
        magnitude_ofParts _ (proper_magnitude x)]
      rwa [signOf, if_pos hneg] at hself
    rw [if_pos hneg, readFloat?, hsplit]
    dsimp only
    rw [h]
    exact congrArg some hopposite
  · have hsplit : splitSign ("".toList ++ cs) = (false, cs) := splitSign_of_readUnsigned? h
    rw [signOf, if_neg hneg] at hself
    rw [if_neg hneg, readFloat?, hsplit]
    dsimp only
    rw [h]
    exact congrArg some hself

/-- A float is finite exactly if its magnitude is. -/
theorem isFinite_iff : x.isFinite = true ↔ ∃ m e, magnitude x = .finite m e := by
  have hfinite : x.isFinite = x.toModel.unpack.isFinite := rfl
  rw [hfinite, unpack_eq]
  cases magnitude x with
  | nan => exact iff_of_false (fun h => nomatch h) (fun ⟨_, _, h⟩ => nomatch h)
  | infinite => exact iff_of_false (fun h => nomatch h) (fun ⟨_, _, h⟩ => nomatch h)
  | finite m e =>
    refine iff_of_true ?_ ⟨m, e, rfl⟩
    unfold unpackedOf
    dsimp only
    split <;> rfl

/-- Zero is written as a sign and a zero. -/
theorem text_zero (format : FloatFormat) {e : ℤ} (h : magnitude x = .finite 0 e) :
    format.text x = signText x ++ (if format.wholeFraction then "0.0" else "0") := by
  unfold FloatFormat.text
  rw [h]
  rfl

/-- Any other finite float is written as a sign and the text of its magnitude. -/
theorem text_finite (format : FloatFormat) (h : magnitude x = .finite m e) (hm : 0 < m) :
    format.text x = signText x ++ format.positiveText m e := by
  obtain ⟨n, rfl⟩ := Nat.exists_eq_succ_of_ne_zero hm.ne'
  unfold FloatFormat.text
  rw [h]
  rfl

/-- The text of a finite number, whatever the format, is read as that number. -/
theorem readFloat?_text (format : FloatFormat) (hx : x.isFinite = true) :
    readFloat? (format.text x).toList = some x := by
  obtain ⟨m, e, hmagnitude⟩ := isFinite_iff.mp hx
  have hproper := proper_magnitude x
  have hnan : magnitude x ≠ .nan := by simp [hmagnitude]
  rw [hmagnitude] at hproper
  cases hproper with
  | zero =>
    rw [text_zero format hmagnitude, String.toList_append]
    refine readFloat?_signed ?_ hnan
    rw [hmagnitude]
    cases format.wholeFraction <;> decide +kernel
  | finite hc =>
    rw [text_finite format hmagnitude hc.pos, String.toList_append]
    refine readFloat?_signed ?_ hnan
    rw [hmagnitude]
    exact readUnsigned?_positiveText format hc

/-! ## Whole numbers with a fraction of one zero -/

/-- The whole part of a whole float is its magnitude. -/
theorem cast_wholePart (h : isIntegral x = true) (hmagnitude : magnitude x = .finite m e) :
    (wholePart m e : ℚ) = m * 2 ^ e := by
  unfold isIntegral at h
  rw [hmagnitude] at h
  simp only [Bool.or_eq_true, decide_eq_true_eq, beq_iff_eq] at h
  unfold wholePart
  split
  case isTrue hpos =>
    obtain ⟨k, rfl⟩ := Int.eq_ofNat_of_zero_le hpos
    exact_mod_cast rfl
  case isFalse hneg =>
    obtain ⟨k, hk⟩ : ∃ k : ℕ, e = -k := ⟨e.natAbs, by omega⟩
    have hdvd : 2 ^ k ∣ m := by
      refine Nat.dvd_of_mod_eq_zero ?_
      have := h.resolve_left hneg
      rwa [hk, Int.natAbs_neg, Int.natAbs_natCast] at this
    obtain ⟨q, rfl⟩ := hdvd
    have hquotient : 2 ^ k * q / Nat.pow 2 e.natAbs = q := by
      rw [hk, Int.natAbs_neg, Int.natAbs_natCast]
      exact Nat.mul_div_cancel_left q (Nat.two_pow_pos k)
    rw [hquotient, hk, zpow_neg, zpow_natCast]
    push_cast
    field_simp

/-- A whole float is written as a sign, its whole part and a point with a zero. -/
theorem wholeText_eq (hmagnitude : magnitude x = .finite m e) :
    wholeText x = signText x ++ toString (wholePart m e) ++ ".0" := by
  unfold wholeText
  rw [hmagnitude]
  rfl

/-- The exact value of a whole number is read as that number. -/
theorem readFloat?_wholeText (h : isIntegral x = true) (hx : x.isFinite = true) :
    readFloat? (wholeText x).toList = some x := by
  obtain ⟨m, e, hmagnitude⟩ := isFinite_iff.mp hx
  have hvalue := cast_wholePart h hmagnitude
  have hproper := proper_magnitude x
  have hnumeral := isNumeral_toDigits (wholePart m e)
  have htenth : digitsValue 0 (Nat.toDigits 10 (wholePart m e) ++ ['0']) = wholePart m e * 10 := by
    rw [digitsValue_append, digitsValue_toDigits]
    rfl
  have hread : readUnsigned? (Nat.toDigits 10 (wholePart m e) ++ '.' :: (['0'] ++ [])) =
      some (nearestFloat (wholePart m e * 10) (-1)) := by
    rw [readUnsigned?_point hnumeral (by simp) endsDigits_nil, htenth]
    rfl
  rw [wholeText_eq hmagnitude, String.toList_append, String.toList_append, List.append_assoc,
    toList_toString]
  refine readFloat?_signed (hread.trans (congrArg some ?_)) (by simp [hmagnitude])
  rw [hmagnitude] at hproper ⊢
  cases hproper with
  | zero => decide +kernel
  | finite hc =>
    have hround : RoundsTo ((wholePart m e * 10 : ℕ) * 10 ^ (-1 : ℤ)) m e := by
      have hcancel : ((wholePart m e * 10 : ℕ) : ℚ) * 10 ^ (-1 : ℤ) = m * 2 ^ e := by
        rw [← hvalue]
        norm_num [mul_assoc]
      rw [hcancel]
      exact RoundsTo.self m e
    have hpos : 0 < wholePart m e := by
      have hm : (0 : ℚ) < m := by exact_mod_cast hc.pos
      have := mul_pos hm (two_zpow_pos e)
      rw [← hvalue] at this
      exact_mod_cast this
    exact nearestFloat_eq (by omega) hc hround

/-! ## Which texts are texts of whole numbers -/

/-- The characters that numbers are written with. -/
def isNumberChar (c : Char) : Bool := c.isDigit || c == '-' || c == '+' || c == '.' || c == 'e'

/-- The text has only characters of numbers. -/
def NumberText (s : String) : Prop := ∀ c ∈ s.toList, isNumberChar c = true

instance (s : String) : Decidable (NumberText s) :=
  decidable_of_iff (s.toList.all isNumberChar = true) List.all_eq_true

/-- Texts of numbers put together have characters of numbers only. -/
theorem NumberText.append {s t : String} (hs : NumberText s) (ht : NumberText t) :
    NumberText (s ++ t) := by
  intro c hc
  rw [String.toList_append] at hc
  exact (List.mem_append.mp hc).elim (hs c) (ht c)

/-- Digits are characters of numbers. -/
theorem numberText_ofList {cs : List Char} (h : ∀ c ∈ cs, c.isDigit = true) :
    NumberText (String.ofList cs) := by
  intro c hc
  rw [String.toList_ofList] at hc
  simp [isNumberChar, h c hc]

/-- So are zeros. -/
theorem numberText_zeros (n : ℕ) : NumberText (zeros n) :=
  numberText_ofList fun _ => isDigit_of_mem_zeros

/-- So are those of natural numbers. -/
theorem numberText_toString (n : ℕ) : NumberText (toString n) := by
  rw [← String.ofList_toList (s := toString n), toList_toString]
  exact numberText_ofList (isNumeral_toDigits n).digit

/-- So are those of whole numbers. -/
theorem numberText_intText (k : ℤ) : NumberText (toString k) := by
  cases k with
  | ofNat n => exact numberText_toString n
  | negSucc n => exact (by decide : NumberText "-").append (numberText_toString (n + 1))

/-- So is a minus sign. -/
theorem numberText_signText (x : Float) : NumberText (signText x) := by
  unfold signText
  split <;> decide

/-- So are digits around a point. -/
theorem numberText_positionalText (format : FloatFormat) (h : ∀ c ∈ digits, c.isDigit = true)
    (point : ℤ) : NumberText (positionalText format digits point) := by
  unfold positionalText
  dsimp only
  split
  · exact ((by decide : NumberText "0.").append (numberText_zeros _)).append (numberText_ofList h)
  · split
    · exact ((numberText_ofList fun c hc =>
        h c (List.mem_of_mem_take hc)).append (by decide)).append
        (numberText_ofList fun c hc => h c (List.mem_of_mem_drop hc))
    · refine ((numberText_ofList h).append (numberText_zeros _)).append ?_
      split <;> decide

/-- So are digits with an exponent. -/
theorem numberText_scientificText (format : FloatFormat) (h : ∀ c ∈ digits, c.isDigit = true)
    (exponent : ℤ) : NumberText (scientificText format digits exponent) := by
  have hfirst : NumberText (String.ofList (digits.take 1)) :=
    numberText_ofList fun c hc => h c (List.mem_of_mem_take hc)
  have hrest : NumberText (String.ofList (digits.drop 1)) :=
    numberText_ofList fun c hc => h c (List.mem_of_mem_drop hc)
  unfold scientificText
  dsimp only
  refine (((hfirst.append ?_).append (by decide)).append ?_).append (numberText_toString _)
  · split
    · decide
    · exact (by decide : NumberText ".").append hrest
  · split
    · decide
    · split <;> decide

/-- The text of a finite number, whatever the format. -/
theorem numberText_text (format : FloatFormat) (hx : x.isFinite = true) :
    NumberText (format.text x) := by
  obtain ⟨m, e, hmagnitude⟩ := isFinite_iff.mp hx
  rcases Nat.eq_zero_or_pos m with rfl | hm
  · rw [text_zero format hmagnitude]
    refine (numberText_signText x).append ?_
    split <;> decide
  · rw [text_finite format hmagnitude hm]
    have hdigits := (isNumeral_toDigits (shortest format.tie m e).digits).digit
    exact (numberText_signText x).append (iteInduction (motive := NumberText)
      (fun _ => numberText_positionalText format hdigits _)
      (fun _ => numberText_scientificText format hdigits _))

/-- The text of a whole float is one of a number. -/
theorem numberText_wholeText (hx : x.isFinite = true) : NumberText (wholeText x) := by
  obtain ⟨m, e, hmagnitude⟩ := isFinite_iff.mp hx
  rw [wholeText_eq hmagnitude]
  exact ((numberText_signText x).append (numberText_toString _)).append (by decide)

/-- A point or an exponent tells the number from a whole one. -/
def Marked (s : String) : Prop := '.' ∈ s.toList ∨ 'e' ∈ s.toList

/-- A text that ends with a marked one is marked. -/
theorem Marked.append_left {s : String} (h : Marked s) (t : String) : Marked (t ++ s) := by
  unfold Marked
  rw [String.toList_append]
  exact h.imp (List.mem_append_right _) (List.mem_append_right _)

/-- A character that is no sign is still there when the sign has been taken off. -/
theorem mem_splitSign {c : Char} {cs : List Char} (hminus : c ≠ '-') (hplus : c ≠ '+')
    (h : c ∈ cs) : c ∈ (splitSign cs).2 := by
  unfold splitSign
  split
  · exact (List.mem_cons.mp h).resolve_left hminus
  · exact (List.mem_cons.mp h).resolve_left hplus
  · exact h

/-- What is marked is not read as a whole number. -/
theorem readInt?_marked {s : String} (h : Marked s) : readInt? s.toList = none := by
  have hdigit : ∃ c ∈ (splitSign s.toList).2, c.isDigit = false :=
    h.elim (fun hpoint => ⟨'.', mem_splitSign (by decide) (by decide) hpoint, by decide⟩)
      (fun hmark => ⟨'e', mem_splitSign (by decide) (by decide) hmark, by decide⟩)
  obtain ⟨c, hc, hfalse⟩ := hdigit
  refine if_neg fun haccepted => ?_
  rw [Bool.and_eq_true, List.all_eq_true] at haccepted
  have := haccepted.2 c hc
  rw [hfalse] at this
  cases this

/-- Digits around a point have a mark, if the point is inside or followed by a zero. -/
theorem marked_positionalText (format : FloatFormat) {point : ℤ}
    (h : format.wholeFraction = true ∨ point < digits.length) :
    Marked (positionalText format digits point) := by
  left
  unfold positionalText
  dsimp only
  split
  case isTrue => simp
  case isFalse =>
    split
    case isTrue => simp
    case isFalse houtside =>
      rw [if_pos (h.resolve_right houtside)]
      simp

/-- Digits with an exponent have a mark. -/
theorem marked_scientificText (format : FloatFormat) (exponent : ℤ) :
    Marked (scientificText format digits exponent) := by
  right
  unfold scientificText
  simp

/-- A format that gives whole numbers a fraction marks all finite numbers. -/
theorem marked_text {format : FloatFormat} (h : format.wholeFraction = true)
    (hx : x.isFinite = true) : Marked (format.text x) := by
  obtain ⟨m, e, hmagnitude⟩ := isFinite_iff.mp hx
  rcases Nat.eq_zero_or_pos m with rfl | hm
  · rw [text_zero format hmagnitude, if_pos h]
    exact Marked.append_left (.inl (by decide)) _
  · rw [text_finite format hmagnitude hm]
    exact Marked.append_left (iteInduction (motive := Marked)
      (fun _ => marked_positionalText format (.inl h))
      (fun _ => marked_scientificText format _)) _

/-- A whole number that rounds to a fraction is that fraction. -/
theorem RoundsTo.eq_of_natCast {n k : ℕ} (h : RoundsTo n m (-k)) : m = n * 2 ^ k := by
  have hreach := reach_le m (-k)
  have hdiv : (n : ℚ) / 2 ^ (-k : ℤ) = (n * 2 ^ k : ℕ) := by
    rw [zpow_neg, zpow_natCast, div_inv_eq_mul]
    push_cast
    rfl
  have hlow := h.low
  have hhigh := h.high
  rw [hdiv] at hlow hhigh
  have hle : ((2 * (n * 2 ^ k) : ℕ) : ℚ) ≤ (2 * m + 1 : ℕ) := by
    push_cast at hhigh ⊢
    linarith
  have hge : ((2 * m : ℕ) : ℚ) ≤ (2 * (n * 2 ^ k) + 1 : ℕ) := by
    push_cast at hlow ⊢
    linarith
  have hle' : 2 * (n * 2 ^ k) ≤ 2 * m + 1 := by exact_mod_cast hle
  have hge' : 2 * m ≤ 2 * (n * 2 ^ k) + 1 := by exact_mod_cast hge
  omega

/-- The shortest decimal of a number that is not whole has a fraction. -/
theorem shortest_exponent_neg (tie : Tie) (hc : Canonical m e)
    (hmagnitude : magnitude x = .finite m e) (h : isIntegral x = false) :
    (shortest tie m e).exponent < 0 := by
  obtain ⟨-, hround⟩ := shortest_spec tie hc
  generalize shortest tie m e = d at hround ⊢
  unfold isIntegral at h
  rw [hmagnitude] at h
  simp only [Bool.or_eq_false_iff, decide_eq_false_iff_not, beq_eq_false_iff_ne, not_le] at h
  obtain ⟨hneg, hrest⟩ := h
  obtain ⟨k, rfl⟩ : ∃ k : ℕ, e = -k := ⟨e.natAbs, by omega⟩
  by_contra hexponent
  obtain ⟨j, hj⟩ := Int.eq_ofNat_of_zero_le (not_lt.mp hexponent)
  have hwhole : (d.digits : ℚ) * 10 ^ d.exponent = (d.digits * 10 ^ j : ℕ) := by
    rw [hj]
    push_cast
    rfl
  rw [hwhole] at hround
  refine hrest ?_
  rw [hround.eq_of_natCast, Int.natAbs_neg, Int.natAbs_natCast]
  exact Nat.mul_mod_left _ _

/-- A number that is not whole is not zero. -/
theorem canonical_of_not_isIntegral {m : ℕ} {e : ℤ} (hmagnitude : magnitude x = .finite m e)
    (h : isIntegral x = false) : Canonical m e := by
  have hproper := proper_magnitude x
  rw [hmagnitude] at hproper
  cases hproper with
  | zero =>
    unfold isIntegral at h
    rw [hmagnitude] at h
    exact absurd h (by decide +kernel)
  | finite hc => exact hc

/-- The plain text of a number that is not whole has a point. -/
theorem marked_plain (h : isIntegral x = false) (hx : x.isFinite = true) :
    Marked (plain.text x) := by
  obtain ⟨m, e, hmagnitude⟩ := isFinite_iff.mp hx
  have hc := canonical_of_not_isIntegral hmagnitude h
  have hexponent := shortest_exponent_neg plain.tie hc hmagnitude h
  rw [text_finite plain hmagnitude hc.pos]
  exact Marked.append_left (marked_positionalText plain (.inr (by omega))) _

/-! ## Cells -/

/-- The text of a finite number, as scripts show it, is read as that number. -/
theorem readFloat?_floatText (hx : x.isFinite = true) :
    readFloat? (Value.floatText x).toList = some x := by
  unfold Value.floatText
  split
  case isTrue h => exact readFloat?_wholeText h hx
  case isFalse => exact readFloat?_text plain hx

/-- The text of a finite float is one of a number. -/
theorem numberText_floatText (hx : x.isFinite = true) : NumberText (Value.floatText x) := by
  unfold Value.floatText
  split
  · exact numberText_wholeText hx
  · exact numberText_text plain hx

/-- It is not taken for a whole number. -/
theorem marked_floatText (hx : x.isFinite = true) : Marked (Value.floatText x) := by
  obtain ⟨m, e, hmagnitude⟩ := isFinite_iff.mp hx
  unfold Value.floatText
  split
  case isTrue =>
    rw [wholeText_eq hmagnitude]
    exact Marked.append_left (.inl (by decide)) _
  case isFalse h => exact marked_plain (by simpa using h) hx

/-- The text of a whole number of 64 bits is read as that number. -/
theorem readInt64?_decimalText (n : Int64) : readInt64? (decimalText n).toList = some n := by
  rw [readInt64?, decimalText, readInt?_toString]
  exact int64?_eq_some_iff.mpr rfl

end TableScript.Decimal
