import TableScript.Proofs.Effects
import TableScript.Proofs.Folding
import TableScript.Proofs.LineFeeds
import TableScript.Proofs.Numerals
import TableScript.Proofs.Sameness
import TableScript.Proofs.Written

/-!
# Literals are read as the values they were made from

A script that consists of nothing but the literal of a value ends with that value (`run_literal`): of
the same kinds all the way down, its dictionaries in their order, its floating point numbers to the bit,
a zero with its sign and a NaN as the one NaN there is. The one exception is the least whole number. Its
minus sign is a token of its own, and what follows the sign is too great for a whole number; so no
literal of a value with that number in it is read at all.

Three things come together. Characters are read as tokens: each literal spells the tokens of an
expression (`spells_literal`), or it stops the reading (`stops_literal`). Tokens are read as the
expression, since it can be written (`writable_literalExpr`). And the expression evaluates to the value
in every scope (`eval_literalExpr`). All three go by induction on the value.
-/

namespace TableScript

/-! ## Texts of floating point numbers -/

namespace Decimal

variable {x : Float} {m : ℕ} {e : ℤ} {digits : List Char}

/-- A float is infinite exactly if its magnitude is. -/
theorem isInf_iff (x : Float) : x.isInf = true ↔ magnitude x = .infinite := by
  have h : x.isInf = x.toModel.unpack.isInf := rfl
  rw [h, unpack_eq]
  cases magnitude x with
  | nan => simp [unpackedOf, Float.Model.UnpackedFloat.isInf]
  | infinite => simp [unpackedOf, Float.Model.UnpackedFloat.isInf]
  | finite m e => by_cases hm : m = 0 <;> simp [unpackedOf, Float.Model.UnpackedFloat.isInf, hm]

/-- The floating point numbers that have no digits. -/
theorem finite_or_special (x : Float) :
    x.isFinite = true ∨ x = 0.0 / 0.0 ∨ x = 1.0 / 0.0 ∨ x = -(1.0 / 0.0) := by
  cases hmagnitude : magnitude x with
  | finite m e => exact Or.inl (isFinite_iff.mpr ⟨m, e, hmagnitude⟩)
  | nan => exact Or.inr (Or.inl (eq_of_nan hmagnitude (by decide +kernel)))
  | infinite =>
    have hinfinity : magnitude (1.0 / 0.0) = .infinite := by decide +kernel
    cases hsign : isNegative x with
    | false =>
      refine Or.inr (Or.inr (Or.inl (eq_of_parts (hsign.trans ?_) (hmagnitude.trans hinfinity.symm))))
      decide +kernel
    | true =>
      refine Or.inr (Or.inr (Or.inr (eq_of_parts (hsign.trans ?_) ?_)))
      · decide +kernel
      · rw [magnitude_neg, hinfinity, hmagnitude]

/-- Digits with a point before or among them. -/
theorem positionalText_point (format : FloatFormat) (hdigits : IsNumeral digits) {point : ℤ}
    (hpoint : point < digits.length) : ∃ whole fraction, IsNumeral whole ∧ IsNumeral fraction ∧
      (positionalText format digits point).toList = whole ++ '.' :: fraction := by
  by_cases hbefore : point ≤ 0
  · have htext : positionalText format digits point =
        "0." ++ zeros point.natAbs ++ String.ofList digits := if_pos hbefore
    refine ⟨['0'], List.replicate point.natAbs '0' ++ digits, ⟨by simp, by simp⟩, ?_, ?_⟩
    · exact ⟨List.append_ne_nil_of_right_ne_nil _ hdigits.ne_nil, fun c hc =>
        (List.mem_append.mp hc).elim isDigit_of_mem_zeros (hdigits.digit c)⟩
    · simp [htext, String.toList_append, toList_zeros]
  · have htext : positionalText format digits point =
        String.ofList (digits.take point.toNat) ++ "." ++ String.ofList (digits.drop point.toNat) :=
      (if_neg hbefore).trans (if_pos hpoint)
    refine ⟨digits.take point.toNat, digits.drop point.toNat, ⟨?_, fun c hc =>
      hdigits.digit c (List.mem_of_mem_take hc)⟩, ⟨?_, fun c hc =>
      hdigits.digit c (List.mem_of_mem_drop hc)⟩, by simp [htext, String.toList_append]⟩
    · rw [ne_eq, List.take_eq_nil_iff, not_or]
      exact ⟨by omega, hdigits.ne_nil⟩
    · rw [ne_eq, List.drop_eq_nil_iff]
      omega

/-- A finite number is shown as its sign, digits, a point and digits, and what follows the sign depends on
nothing but the magnitude. -/
theorem floatText_point (hx : x.isFinite = true) :
    ∃ whole fraction, IsNumeral whole ∧ IsNumeral fraction ∧ ∀ y, magnitude y = magnitude x →
      (Value.floatText y).toList = (signText y).toList ++ (whole ++ '.' :: fraction) := by
  obtain ⟨m, e, hmagnitude⟩ := isFinite_iff.mp hx
  have hintegral : ∀ y, magnitude y = magnitude x → isIntegral y = isIntegral x := fun y hy => by
    rw [isIntegral, isIntegral, hy]
  by_cases h : isIntegral x = true
  · refine ⟨Nat.toDigits 10 (wholePart m e), ['0'], isNumeral_toDigits _, ⟨by simp, by simp⟩, ?_⟩
    intro y hy
    rw [Value.floatText, if_pos ((hintegral y hy).trans h), wholeText_eq (hy.trans hmagnitude),
      String.toList_append, String.toList_append, toList_toString, List.append_assoc]
    rfl
  · have hc := canonical_of_not_isIntegral hmagnitude (Bool.not_eq_true _ ▸ h)
    have hexponent := shortest_exponent_neg plain.tie hc hmagnitude (Bool.not_eq_true _ ▸ h)
    obtain ⟨whole, fraction, hwhole, hfraction, htext⟩ := positionalText_point plain
      (isNumeral_toDigits (shortest plain.tie m e).digits)
      (show ((Nat.toDigits 10 (shortest plain.tie m e).digits).length : ℤ)
        + (shortest plain.tie m e).exponent < _ by omega)
    refine ⟨whole, fraction, hwhole, hfraction, fun y hy => ?_⟩
    rw [Value.floatText, if_neg (by rwa [hintegral y hy]), text_finite plain (hy.trans hmagnitude) hc.pos,
      String.toList_append, ← htext]
    rfl

end Decimal

/-! ## The least whole number -/

namespace Value

/-- The value is the least whole number. -/
def isLeast : Value → Bool
  | int n => n == Int64.minValue
  | _ => false

/-- The least whole number is in the value. -/
def HasLeast (v : Value) : Prop := ∃ part ∈ v.parts, part.isLeast = true

instance (v : Value) : Decidable v.HasLeast :=
  inferInstanceAs (Decidable (∃ part ∈ v.parts, part.isLeast = true))

/-- Of the whole numbers only the least is the least. -/
theorem hasLeast_int (n : Int64) : (int n).HasLeast ↔ n = Int64.minValue := by
  simp [HasLeast, parts, isLeast]

/-- A list has the least number exactly if one of its items does. -/
theorem hasLeast_list (items : List Value) : (list items).HasLeast ↔ ∃ v ∈ items, v.HasLeast := by
  rw [← not_iff_not]
  simp only [HasLeast, not_exists, not_and]
  exact (forall_mem_parts_list items).trans (and_iff_right (by simp [isLeast]))

/-- A dictionary has it exactly if one of its values does. -/
theorem hasLeast_dict (entries : Keyed Value) :
    (dict entries).HasLeast ↔ ∃ entry ∈ entries, entry.2.HasLeast := by
  rw [← not_iff_not]
  simp only [HasLeast, not_exists, not_and]
  exact (forall_mem_parts_dict entries).trans (and_iff_right (by simp [isLeast]))

end Value

namespace Script

open Text Decimal

/-! ## Spelling of numbers and words -/

/-- A number ends where a piece does. -/
theorem EndsPiece.endsNumber {rest : List Char} (h : EndsPiece rest) : EndsNumber rest := by
  intro c hc
  have hmem := h c hc
  simp only [List.mem_cons, List.not_mem_nil, or_false] at hmem
  rcases hmem with rfl | rfl | rfl | rfl | rfl <;> decide

/-- So does a word. -/
theorem EndsPiece.endsWord {rest : List Char} (h : EndsPiece rest) : EndsWord rest := by
  intro c hc
  have hmem := h c hc
  simp only [List.mem_cons, List.not_mem_nil, or_false] at hmem
  rcases hmem with rfl | rfl | rfl | rfl | rfl <;> decide

/-- Digits end where a number does. -/
theorem EndsNumber.endsDigits {rest : List Char} (h : EndsNumber rest) : EndsDigits rest := by
  intro c hc
  have hnone := h c hc
  rw [isDigitOrUnderscore, Bool.or_assoc, Bool.or_eq_false_iff] at hnone
  exact hnone.1

/-- A word spells a name. -/
theorem spells_name {s : String} (h : IsWord s.toList) : Spells s.toList [.name s] :=
  fun _ hrest => tokens_name_append h hrest.endsWord

/-- A minus sign is a token by itself. -/
theorem Spells.minus {cs : List Char} {ts : List Token} (h : Spells cs ts) :
    Spells ('-' :: cs) (.minus :: ts) := by
  intro rest hrest
  rw [List.cons_append, tokens_sign .minus rfl (by decide), h rest hrest]
  exact map_append_map _ [.minus] ts

/-- A function that is called with one text. -/
theorem spells_call {name : String} (h : IsWord name.toList) (s : String) :
    Spells (name.toList ++ '(' :: ((stringLiteral s).toList ++ [')']))
      [.name name, .lParen, .str s, .rParen] := by
  intro rest _
  have happend : name.toList ++ '(' :: ((stringLiteral s).toList ++ [')']) ++ rest =
      name.toList ++ '(' :: ((stringLiteral s).toList ++ ')' :: rest) := by simp
  rw [happend, tokens_name_append h (endsWord_cons (by decide) _), tokens_sign .lParen rfl (by decide),
    tokens_stringLiteral_append, tokens_sign .rParen rfl (by decide)]
  cases tokens rest <;> rfl

/-- Digits, a point and digits are read to the end. -/
theorem readNumber_point {whole fraction rest : List Char} (hwhole : IsNumeral whole)
    (hfraction : IsNumeral fraction) {y : Float}
    (hread : readFloat? (whole ++ '.' :: fraction) = some y) (hrest : EndsNumber rest) :
    readNumber (whole ++ '.' :: fraction ++ rest) = .ok (.float y, rest) := by
  have hdigits : ∀ c ∈ whole, isDigitOrUnderscore c = true :=
    fun c hc => by rw [isDigitOrUnderscore, hwhole.digit c hc, Bool.true_or]
  have hpoint : isDigitOrUnderscore '.' = false := by decide
  have hsplit : splitFraction ('.' :: (fraction ++ rest)) = ('.' :: fraction, rest) := by
    obtain ⟨htake, hdrop⟩ := takeWhile_digits hfraction.digit hrest.endsDigits
    obtain ⟨c, cs, rfl⟩ := List.exists_cons_of_ne_nil hfraction.ne_nil
    rw [List.cons_append] at htake hdrop ⊢
    simp only [splitFraction, hfraction.digit c List.mem_cons_self, if_true, htake, hdrop]
  have hfilter : (whole ++ '.' :: fraction).filter (· ≠ '_') = whole ++ '.' :: fraction := by
    rw [List.filter_append, List.filter_cons_of_pos (by decide), filter_digits hwhole.digit,
      filter_digits hfraction.digit]
  obtain ⟨-, -, -, hexponent⟩ := hrest.splits
  rw [List.append_assoc, List.cons_append]
  unfold readNumber
  simp only [List.takeWhile_append_of_pos hdigits, List.dropWhile_append_of_pos hdigits,
    List.takeWhile_cons, List.dropWhile_cons, hpoint, Bool.false_eq_true, if_false, hsplit, hexponent,
    List.append_nil, hfilter, List.isEmpty_cons, Bool.false_and, hread, Option.map_some]

/-- Digits around a point spell the float that is read from them. -/
theorem spells_point {whole fraction : List Char} (hwhole : IsNumeral whole)
    (hfraction : IsNumeral fraction) {y : Float}
    (hread : readFloat? (whole ++ '.' :: fraction) = some y) :
    Spells (whole ++ '.' :: fraction) [.float y] := by
  intro rest hrest
  have hhead : ∀ c ∈ (whole ++ '.' :: fraction).head?, c.isDigit = true := by
    intro c hc
    rw [List.head?_append_of_ne_nil _ hwhole.ne_nil] at hc
    exact hwhole.digit c (List.mem_of_head? hc)
  rw [tokens_digit_append (by simp) hhead, readNumber_point hwhole hfraction hread hrest.endsNumber]
  rfl

/-- The text of a finite floating point number. -/
theorem spells_floatText {x : Float} (hx : x.isFinite = true) :
    Spells (Value.floatText x).toList (literalTokens (.float x)) := by
  obtain ⟨whole, fraction, hwhole, hfraction, htext⟩ := floatText_point hx
  -- What follows the sign is read as whichever of the two numbers has none.
  have hread : ∀ y, magnitude y = magnitude x → isNegative y = false →
      Spells (whole ++ '.' :: fraction) [.float y] := by
    intro y hy hpositive
    obtain ⟨m, e, hmagnitude⟩ := isFinite_iff.mp hx
    have hself := readFloat?_floatText (isFinite_iff.mpr ⟨m, e, hy.trans hmagnitude⟩)
    rw [htext y hy, signText, if_neg (by simp [hpositive])] at hself
    exact spells_point hwhole hfraction hself
  rw [htext x rfl, signText, literalTokens]
  by_cases hnegative : isNegative x = true
  · have hnan : magnitude x ≠ .nan := by
      obtain ⟨m, e, hmagnitude⟩ := isFinite_iff.mp hx
      simp [hmagnitude]
    rw [if_pos hnegative, if_pos hnegative]
    exact (hread (-x) (magnitude_neg x) (by rw [isNegative_neg hnan, hnegative]; rfl)).minus
  · rw [if_neg hnegative, if_neg hnegative]
    exact hread x rfl (Bool.not_eq_true _ ▸ hnegative)

/-- The text of a whole number other than the least. -/
theorem spells_decimalText {n : Int64} (hn : n ≠ Int64.minValue) :
    Spells (decimalText n).toList (literalTokens (.int n)) := by
  have hdigits : ∀ (k : ℕ) (i : Int64), i.toInt = k → Spells (toString k).toList [.int i] := by
    intro k i hi rest hrest
    rw [tokens_toString_append k hrest.endsNumber, int64?_eq_some_iff.mpr hi]
    rfl
  rw [decimalText, literalTokens]
  cases htoInt : n.toInt with
  | ofNat k =>
    have hpositive : ¬ n < 0 := by
      rw [Int64.lt_iff_toInt_lt, htoInt]
      exact not_lt.mpr (Int.natCast_nonneg k)
    rw [if_neg hpositive]
    exact hdigits k n htoInt
  | negSucc k =>
    have hleast : n.toInt ≠ Int64.minValue.toInt := fun h => hn (Int64.toInt_inj.mp h)
    have hlow : -(2 ^ 63 - 1) ≤ n.toInt := by
      have := Int64.le_toInt n
      rw [Int64.toInt_minValue] at hleast
      omega
    have hneg : (-n).toInt = (k + 1 : ℕ) := by
      rw [toInt_neg_of_ne_least hlow, htoInt]
      rfl
    have hnegative : n < 0 := by
      rw [Int64.lt_iff_toInt_lt, htoInt]
      exact Int.negSucc_lt_zero k
    rw [if_pos hnegative, toList_toString_negSucc]
    exact (hdigits (k + 1) (-n) hneg).minus

/-! ## Expressions of values -/

/-- The number as it is called for by name. -/
def namedNumber (s : String) : Expr := .call (.name "float") [.literal (.str s)] []

/-- The expression that the literal of a floating point number is read as. -/
def floatExpr (x : Float) : Expr :=
  if x.isNaN then namedNumber "nan"
  else if x.isInf then (if x < 0.0 then .unary .neg (namedNumber "inf") else namedNumber "inf")
  else .literal (.float x)

mutual

/-- The expression that the literal of a value is read as. -/
def literalExpr : Value → Expr
  | .float x => floatExpr x
  | .list items => .list (itemExprs items)
  | .dict entries => .dict (entryExprs entries)
  | v => .literal v

/-- The expressions of the items of a list. -/
def itemExprs : List Value → List Expr
  | [] => []
  | v :: rest => literalExpr v :: itemExprs rest

/-- The expressions of the entries of a dictionary. -/
def entryExprs : List (String × Value) → List (Expr × Expr)
  | [] => []
  | (key, v) :: rest => (.literal (.str key), literalExpr v) :: entryExprs rest

end

/-- The expressions of items are those of each of them. -/
theorem itemExprs_eq (items : List Value) : itemExprs items = items.map literalExpr := by
  induction items with
  | nil => rfl
  | cons v rest ih => rw [itemExprs, ih, List.map_cons]

/-- So are those of entries. -/
theorem entryExprs_eq (entries : List (String × Value)) :
    entryExprs entries = entries.map fun entry => (.literal (.str entry.1), literalExpr entry.2) := by
  induction entries with
  | nil => rfl
  | cons entry rest ih => rw [entryExprs, ih, List.map_cons]

/-- The items of a literal are written one by one. -/
theorem itemLiterals_eq (items : List Value) : itemLiterals items = items.map literal := by
  induction items with
  | nil => rfl
  | cons v rest ih => rw [itemLiterals, ih, List.map_cons]

/-- The expression, literal and all, of a floating point number: a finite one stands for itself, and the
others are called for by name. -/
theorem floatExpr_cases (x : Float) :
    (x.isFinite = true ∧ floatExpr x = .literal (.float x) ∧ floatLiteral x = Value.floatText x) ∨
      (x = 0.0 / 0.0 ∧ floatExpr x = namedNumber "nan" ∧ floatLiteral x = "float('nan')") ∨
      (x = 1.0 / 0.0 ∧ floatExpr x = namedNumber "inf" ∧ floatLiteral x = "float('inf')") ∨
      x = -(1.0 / 0.0) ∧ floatExpr x = .unary .neg (namedNumber "inf") ∧
        floatLiteral x = "-float('inf')" := by
  rcases finite_or_special x with hx | rfl | rfl | rfl
  · obtain ⟨m, e, hmagnitude⟩ := isFinite_iff.mp hx
    have hnan : ¬ x.isNaN = true := by
      rw [isNaN_iff, hmagnitude]
      exact Magnitude.noConfusion
    have hinf : ¬ x.isInf = true := by
      rw [isInf_iff, hmagnitude]
      exact Magnitude.noConfusion
    refine Or.inl ⟨hx, ?_, ?_⟩
    · rw [floatExpr, if_neg hnan, if_neg hinf]
    · rw [floatLiteral, if_neg hnan, if_neg hinf]
      rfl
  · have hnan : (0.0 / 0.0 : Float).isNaN = true := by decide +kernel
    exact Or.inr (Or.inl ⟨rfl, if_pos hnan, if_pos hnan⟩)
  · have hnan : ¬ (1.0 / 0.0 : Float).isNaN = true := by decide +kernel
    have hinf : (1.0 / 0.0 : Float).isInf = true := by decide +kernel
    have hsign : ¬ (1.0 / 0.0 : Float) < 0.0 := by decide +kernel
    refine Or.inr (Or.inr (Or.inl ⟨rfl, ?_, ?_⟩))
    · rw [floatExpr, if_neg hnan, if_pos hinf, if_neg hsign]
    · rw [floatLiteral, if_neg hnan, if_pos hinf, if_neg hsign]
  · have hnan : ¬ (-(1.0 / 0.0) : Float).isNaN = true := by decide +kernel
    have hinf : (-(1.0 / 0.0) : Float).isInf = true := by decide +kernel
    have hsign : (-(1.0 / 0.0) : Float) < 0.0 := by decide +kernel
    refine Or.inr (Or.inr (Or.inr ⟨rfl, ?_, ?_⟩))
    · rw [floatExpr, if_neg hnan, if_pos hinf, if_pos hsign]
    · rw [floatLiteral, if_neg hnan, if_pos hinf, if_pos hsign]

/-- The literal of a float spells its expression. -/
theorem spells_floatLiteral (x : Float) : Spells (floatLiteral x).toList (floatExpr x).written := by
  have hcall : ∀ s, Spells ("float".toList ++ '(' :: ((stringLiteral s).toList ++ [')']))
      (namedNumber s).written := fun s => spells_call (by decide) s
  rcases floatExpr_cases x with ⟨hx, hexpr, htext⟩ | ⟨-, hexpr, htext⟩ | ⟨-, hexpr, htext⟩ |
    ⟨-, hexpr, htext⟩
  · rw [hexpr, htext]
    exact spells_floatText hx
  · rw [hexpr, htext]
    exact hcall "nan"
  · rw [hexpr, htext]
    exact hcall "inf"
  · rw [hexpr, htext]
    exact (hcall "inf").minus

/-- The expression of a float can be written. -/
theorem writable_floatExpr (x : Float) : Writable (floatExpr x) := by
  have hcall : ∀ s, Writable (namedNumber s) := fun s =>
    .call (.name (by decide)) (List.forall_mem_singleton.mpr (.str s)) (List.forall_mem_nil _)
  rcases floatExpr_cases x with ⟨-, hexpr, -⟩ | ⟨-, hexpr, -⟩ | ⟨-, hexpr, -⟩ | ⟨-, hexpr, -⟩
  · exact hexpr ▸ .float x
  · exact hexpr ▸ hcall "nan"
  · exact hexpr ▸ hcall "inf"
  · exact hexpr ▸ .unary (hcall "inf") fun _ => rfl

/-! ## Literals that are not read -/

/-- The characters stop the reading where a part of a literal can end. -/
def Stops (cs : List Char) (e : SyntaxError) : Prop :=
  ∀ rest, EndsPiece rest → tokens (cs ++ rest) = .error e

section Stops

variable {e : SyntaxError} {s : String}

/-- A minus sign does not help reading over what stops it. -/
theorem Stops.minus {cs : List Char} (h : Stops cs e) : Stops ('-' :: cs) e := by
  intro rest hrest
  rw [List.cons_append, tokens_sign .minus rfl (by decide), h rest hrest]
  rfl

/-- Neither do brackets. -/
theorem Stops.list (h : Stops s.toList e) : Stops ("[" ++ s ++ "]").toList e := by
  intro rest _
  rw [tokens_list_append, h _ ((endsPiece_cons _ _).mpr (by simp))]
  rfl

/-- Neither do braces. -/
theorem Stops.dict (h : Stops s.toList e) : Stops ("\x7b" ++ s ++ "\x7d").toList e := by
  intro rest _
  rw [tokens_dict_append, h _ ((endsPiece_cons _ _).mpr (by simp))]
  rfl

/-- Neither does a key in front. -/
theorem Stops.entry {key : String} {ts : List Token} (hkey : Spells key.toList ts)
    (h : Stops s.toList e) : Stops (key ++ ": " ++ s).toList e := by
  intro rest hrest
  rw [toList_entry_append, hkey _ ((endsPiece_cons _ _).mpr (by simp)), tokens_colon, h rest hrest]
  rfl

/-- The first part that is not read stops the reading. -/
theorem Stops.intercalate {pieces : List String}
    (h : ∀ piece ∈ pieces, (∃ ts, Spells piece.toList ts) ∨ Stops piece.toList e)
    (hstops : ∃ piece ∈ pieces, Stops piece.toList e) : Stops (", ".intercalate pieces).toList e := by
  induction pieces with
  | nil =>
    obtain ⟨piece, hpiece, -⟩ := hstops
    cases hpiece
  | cons piece pieces ih =>
    cases pieces with
    | nil => simpa [String.toList_intercalate] using hstops
    | cons next pieces =>
      intro rest hrest
      rw [toList_intercalate_cons]
      obtain ⟨hpiece, hpieces⟩ := List.forall_mem_cons.mp h
      rcases hpiece with ⟨ts, hts⟩ | hpiece
      · have hlater : ∃ piece ∈ next :: pieces, Stops piece.toList e := by
          obtain ⟨other, hother, hstop⟩ := hstops
          rcases List.mem_cons.mp hother with rfl | hother
          · have hnone := hts [] endsPiece_nil
            rw [hstop [] endsPiece_nil] at hnone
            cases hnone
          · exact ⟨other, hother, hstop⟩
        rw [hts _ ((endsPiece_cons _ _).mpr (by simp)), tokens_comma, ih hpieces hlater rest hrest]
        rfl
      · exact hpiece _ ((endsPiece_cons _ _).mpr (by simp))

/-- The digits of the least whole number are those of a number that is too great. -/
theorem stops_least : Stops (decimalText Int64.minValue).toList (.invalidNumber "9223372036854775808") := by
  have htext : (decimalText Int64.minValue).toList = '-' :: (toString (2 ^ 63)).toList := by decide +kernel
  have hdigits : Stops (toString (2 ^ 63)).toList (.invalidNumber "9223372036854775808") := by
    intro rest hrest
    have hnone : int64? (2 ^ 63 : ℕ) = none := by decide +kernel
    have hshown : toString (2 ^ 63) = "9223372036854775808" := by decide +kernel
    rw [tokens_toString_append _ hrest.endsNumber, hnone, hshown]
    rfl
  rw [htext]
  exact hdigits.minus

end Stops

/-! ## Literals as tokens -/

/-- Pieces are separated by commas. -/
theorem separated_eq (pieces : List (List Token)) :
    separated pieces = [Token.comma].intercalate pieces := by
  induction pieces with
  | nil => rfl
  | cons piece pieces ih =>
    cases pieces with
    | nil => simp [separated]
    | cons next pieces =>
      rw [separated, ih, List.intercalate_cons_cons, List.append_assoc, List.singleton_append]
      simp

/-- The tokens of items are those of each of them. -/
theorem writtenItems_eq (items : List Expr) : writtenItems items = items.map Expr.written := by
  induction items with
  | nil => rfl
  | cons e rest ih => rw [writtenItems, ih, List.map_cons]

/-- So are those of entries. -/
theorem writtenEntries_eq (entries : List (Expr × Expr)) :
    writtenEntries entries = entries.map fun entry => entry.1.written ++ .colon :: entry.2.written := by
  induction entries with
  | nil => rfl
  | cons entry rest ih => rw [writtenEntries, ih, List.map_cons]

/-- The literal of a value without the least whole number spells the tokens of its expression. -/
theorem spells_literal {v : Value} (h : ¬ v.HasLeast) :
    Spells (literal v).toList (literalExpr v).written := by
  induction v using Value.inside with
  | null => exact spells_name (by decide)
  | bool b => cases b <;> exact spells_name (by decide)
  | int n => exact spells_decimalText (mt (Value.hasLeast_int n).mpr h)
  | float x => exact spells_floatLiteral x
  | str s => exact spells_stringLiteral s
  | list items ih =>
    simp only [Value.hasLeast_list, not_exists, not_and] at h
    rw [literal, itemLiterals_eq, literalExpr, Expr.written, itemExprs_eq, writtenItems_eq, List.map_map,
      separated_eq]
    exact Spells.list (Spells.intercalate fun v hv => ih v hv (h v hv))
  | dict entries ih =>
    simp only [Value.hasLeast_dict, not_exists, not_and] at h
    rw [literal, entryLiterals_eq, literalExpr, Expr.written, entryExprs_eq, writtenEntries_eq,
      List.map_map, separated_eq]
    exact Spells.dict (Spells.intercalate fun entry hentry =>
      (spells_stringLiteral entry.1).entry (ih entry hentry (h entry hentry)))

/-- The literal of a value with the least whole number in it stops at that number. -/
theorem stops_literal {v : Value} (h : v.HasLeast) :
    Stops (literal v).toList (.invalidNumber "9223372036854775808") := by
  induction v using Value.inside with
  | null | bool | float | str => simp [Value.HasLeast, Value.parts, Value.isLeast] at h
  | int n =>
    rw [(Value.hasLeast_int n).mp h, literal]
    exact stops_least
  | list items ih =>
    obtain ⟨v, hv, hleast⟩ := (Value.hasLeast_list items).mp h
    rw [literal, itemLiterals_eq]
    refine Stops.list (Stops.intercalate (List.forall_mem_map.mpr fun w hw => ?_)
      ⟨_, List.mem_map_of_mem hv, ih v hv hleast⟩)
    by_cases hw' : w.HasLeast
    · exact Or.inr (ih w hw hw')
    · exact Or.inl ⟨_, spells_literal hw'⟩
  | dict entries ih =>
    obtain ⟨entry, hentry, hleast⟩ := (Value.hasLeast_dict entries).mp h
    have hstops := (ih entry hentry hleast).entry (spells_stringLiteral entry.1)
    rw [literal, entryLiterals_eq]
    refine Stops.dict (Stops.intercalate (List.forall_mem_map.mpr fun other hother => ?_)
      ⟨_, List.mem_map_of_mem hentry, hstops⟩)
    by_cases hother' : other.2.HasLeast
    · exact Or.inr ((ih other hother hother').entry (spells_stringLiteral other.1))
    · exact Or.inl ⟨_, (spells_stringLiteral other.1).entry (spells_literal hother')⟩

/-! ## Literals as expressions -/

/-- The expression of a value without the least number can be written. -/
theorem writable_literalExpr {v : Value} (h : ¬ v.HasLeast) : Writable (literalExpr v) := by
  induction v using Value.inside with
  | null => exact .null
  | bool b => exact .bool b
  | int n => exact .int (mt (Value.hasLeast_int n).mpr h)
  | float x => exact writable_floatExpr x
  | str s => exact .str s
  | list items ih =>
    simp only [Value.hasLeast_list, not_exists, not_and] at h
    rw [literalExpr, itemExprs_eq]
    exact .list (List.forall_mem_map.mpr fun v hv => ih v hv (h v hv))
  | dict entries ih =>
    simp only [Value.hasLeast_dict, not_exists, not_and] at h
    rw [literalExpr, entryExprs_eq]
    exact .dict (List.forall_mem_map.mpr fun entry _ => .str entry.1)
      (List.forall_mem_map.mpr fun entry hentry => ih entry hentry (h entry hentry))

/-- The expression of a value is no name. -/
theorem isName_literalExpr (v : Value) : (literalExpr v).isName = false := by
  cases v with
  | float x =>
    rw [literalExpr]
    rcases floatExpr_cases x with ⟨-, hexpr, -⟩ | ⟨-, hexpr, -⟩ | ⟨-, hexpr, -⟩ | ⟨-, hexpr, -⟩ <;>
      rw [hexpr] <;> rfl
  | null | bool | int | str | list | dict => rfl

section Evaluation

variable (files : Files) (scope : Scope)

/-- The name of a number in the call that makes a float of it is that float. -/
theorem eval_namedNumber {s : String} {x : Float} (h : readFloat? (trimChars s.toList) = some x) :
    eval files (namedNumber s) scope = .ok (.scalar (.float x), scope) := by
  have hcall : callFunction "float" ⟨[.scalar (.str s)], []⟩ = .ok (.scalar (.float x)) := by
    simp [callFunction, CallValues.required, CallValues.get?, Operand.toScalar, floatOf?, h, bind,
      Except.bind, pure, Except.pure]
  have hpositional : evalAll files [.literal (.str s)] scope = .ok ([.scalar (.str s)], scope) :=
    evalAll_literals files scope [.str s]
  rw [namedNumber, eval, run_bind_of_ok hpositional, run_bind_of_ok (evalKeywords_nil files scope [])]
  exact run_lift_eq_ok.mpr ⟨hcall, rfl⟩

/-- The expression of a float is that float. -/
theorem eval_floatExpr (x : Float) : eval files (floatExpr x) scope = .ok (.scalar (.float x), scope) := by
  have hinfinity : eval files (namedNumber "inf") scope = .ok (.scalar (.float (1.0 / 0.0)), scope) :=
    eval_namedNumber files scope (by decide +kernel)
  rcases floatExpr_cases x with ⟨-, hexpr, -⟩ | ⟨rfl, hexpr, -⟩ | ⟨rfl, hexpr, -⟩ | ⟨rfl, hexpr, -⟩
  · rw [hexpr, eval_literal]
  · rw [hexpr]
    exact eval_namedNumber files scope (by decide +kernel)
  · rw [hexpr, hinfinity]
  · rw [hexpr, eval, run_bind_of_ok hinfinity]
    exact run_lift_eq_ok.mpr ⟨rfl, rfl⟩

/-- The expression of a value evaluates to the value, and leaves the scope as it is. -/
theorem eval_literalExpr {v : Value} (h : v.Distinct) :
    eval files (literalExpr v) scope = .ok (.scalar v, scope) := by
  induction v using Value.inside with
  | null | bool | int | str => exact eval_literal files scope _
  | float x => exact eval_floatExpr files scope x
  | list items ih =>
    rw [Value.distinct_list] at h
    have heval := eval_items files scope (f := literalExpr) (g := id) fun v hv => ih v hv (h v hv)
    rwa [List.map_id, ← itemExprs_eq] at heval
  | dict entries ih =>
    obtain ⟨hkeys, hvalues⟩ := (Value.distinct_dict entries).mp h
    have heval := eval_entries files scope (f := literalExpr) (g := id) hkeys
      fun entry hentry => ih entry hentry (hvalues entry hentry)
    rwa [← entryExprs_eq, show (fun entry : String × Value => (entry.1, id entry.2)) = id from rfl,
      List.map_id] at heval

end Evaluation

/-! ## Scripts that are literals -/

/-- A script of one line, or of none, is carried out as that line. -/
theorem run_of_oneLine (files : Files) (book : Workbook) {source : String} (h : OneLine source) :
    run files book source = (runLine files 1 ⟨.initial book, none⟩ source.toList).map fun progress =>
      ⟨progress.scope.book, progress.last⟩ := by
  rw [run, runFrom]
  by_cases hne : source.toList = []
  · rw [hne]
    rfl
  · rw [linesOf_of_newline_not_mem hne h, runLines]
    cases runLine files 1 ⟨.initial book, none⟩ source.toList <;> rfl

/-- The literal of a value is one line. -/
theorem oneLine_literal (v : Value) : OneLine (literal v) := by
  have hnumber : ∀ s, NumberText s → OneLine s := fun s hs hmem => absurd (hs _ hmem) (by decide)
  induction v using Value.inside with
  | null => decide
  | bool b => cases b <;> decide
  | int n => exact hnumber _ (numberText_intText _)
  | float x =>
    rw [literal]
    rcases floatExpr_cases x with ⟨hx, -, htext⟩ | ⟨-, -, htext⟩ | ⟨-, -, htext⟩ | ⟨-, -, htext⟩
    · exact htext ▸ hnumber _ (numberText_floatText hx)
    · rw [htext]; decide
    · rw [htext]; decide
    · rw [htext]; decide
  | str s => exact oneLine_stringLiteral s
  | list items ih =>
    rw [literal, itemLiterals_eq, oneLine_append, oneLine_append, oneLine_intercalate (by decide)]
    exact ⟨⟨by decide, List.forall_mem_map.mpr ih⟩, by decide⟩
  | dict entries ih =>
    rw [literal, entryLiterals_eq, oneLine_append, oneLine_append, oneLine_intercalate (by decide)]
    refine ⟨⟨by decide, List.forall_mem_map.mpr fun entry hentry => ?_⟩, by decide⟩
    rw [oneLine_append, oneLine_append]
    exact ⟨⟨oneLine_stringLiteral entry.1, by decide⟩, ih entry hentry⟩

/-- The literal of a value is one line, and a script that consists of it ends with the value and leaves the
workbook as it is, unless the least whole number is in the value: then the line is not read. -/
theorem run_literal (files : Files) (book : Workbook) {v : Value} (distinct : v.Distinct) :
    OneLine (literal v) ∧ run files book (literal v) =
      if v.HasLeast then .error ⟨1, .malformed (.invalidNumber "9223372036854775808")⟩
      else .ok ⟨book, some ⟨.scalar v, 1, trim (literal v), false⟩⟩ := by
  refine ⟨oneLine_literal v, ?_⟩
  rw [run_of_oneLine files book (oneLine_literal v), runLine]
  by_cases hleast : v.HasLeast
  · have hline : lineStatement? (literal v).toList =
        .error (.invalidNumber "9223372036854775808") := by
      have hstop := stops_literal hleast [] endsPiece_nil
      rw [List.append_nil] at hstop
      rw [lineStatement?, hstop]
      rfl
    rw [if_pos hleast, hline]
    rfl
  · have hwritten := statement_of_written (writable_literalExpr hleast)
    have htokens : tokens (literal v).toList = .ok (literalExpr v).written := by
      have hspells := spells_literal hleast [] endsPiece_nil
      rwa [List.append_nil, tokens_nil, Except.map, List.append_nil] at hspells
    have hne : (literalExpr v).written ≠ [] := by
      intro hnil
      rw [hnil] at hwritten
      cases hwritten
    have hexec : (exec files (.expr (literalExpr v))).run (.initial book) =
        .ok (some (.scalar v), .initial book) := by
      change exec files (.expr (literalExpr v)) (.initial book) = _
      rw [exec, run_bind_of_ok (eval_literalExpr files _ distinct)]
      rfl
    rw [if_neg hleast, lineStatement?_eq htokens hne hwritten]
    simp only [hexec, Statement.isName, isName_literalExpr]
    rfl

/-- The greatest whole number, a zero with its sign, and numbers without digits come back from inside a
dictionary; the least whole number does not come back from a list. -/
theorem run_literal_at_the_ends :
    let book : Workbook := ⟨[("float", ⟨[("A", [.int 1])], 1⟩)]⟩
    let ends : Value := .dict [("z\n", .list [.int 9223372036854775807, .float (-0.0), .dict []]),
      ("a'", .list [.float (0.0 / 0.0), .float (-(1.0 / 0.0)), .float 1e16, .null, .bool false])]
    let least : Value := .list [.str "before", .dict [("low", .int Int64.minValue)]]
    literal ends = "\x7b'z\\n': [9223372036854775807, -0.0, \x7b\x7d], " ++
      "'a\\'': [float('nan'), -float('inf'), 10000000000000000.0, None, False]\x7d" ∧
    (ends.Distinct ∧ OneLine (literal ends) ∧
      run default book (literal ends) = .ok ⟨book, some ⟨.scalar ends, 1, trim (literal ends), false⟩⟩) ∧
    literal least = "['before', \x7b'low': -9223372036854775808\x7d]" ∧
    (least.Distinct ∧ OneLine (literal least) ∧ run default book (literal least) =
      .error ⟨1, .malformed (.invalidNumber "9223372036854775808")⟩) := by
  intro book ends least
  have hends : ends.Distinct := by decide +kernel
  have hleast : least.Distinct := by decide +kernel
  obtain ⟨hendsLine, hendsRun⟩ := run_literal default book hends
  obtain ⟨hleastLine, hleastRun⟩ := run_literal default book hleast
  rw [if_neg (by decide +kernel)] at hendsRun
  rw [if_pos (by decide +kernel)] at hleastRun
  exact ⟨by decide +kernel, ⟨hends, hendsLine, hendsRun⟩, by decide +kernel,
    ⟨hleast, hleastLine, hleastRun⟩⟩

end Script

end TableScript
