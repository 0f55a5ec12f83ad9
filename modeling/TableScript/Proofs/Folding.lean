import TableScript.Proofs.Lexemes
import TableScript.Proofs.Parsing

/-!
# Minus signs before numbers

A minus sign before a number makes the negative number when the line is read, before any of it is carried
out. The least word has no negative that is a word, so this would go wrong for it; but it is never there.
Numbers are read without signs, and what minus signs make of a number that is not negative is greater than
the least word (`foldsWithin`).
-/

namespace TableScript.Script

/-- Without a minus sign no negative number is read. -/
theorem nonneg_of_readInt? {cs : List Char} {n : Int} (h : Decimal.readInt? cs = some n)
    (hminus : '-' ∉ cs) : 0 ≤ n := by
  have hsign : (Decimal.splitSign cs).1 = false := by
    unfold Decimal.splitSign
    split
    case h_1 => exact absurd List.mem_cons_self hminus
    case h_2 | h_3 => rfl
  unfold Decimal.readInt? at h
  simp only [hsign, Bool.false_eq_true, if_false] at h
  split at h
  · cases h
    exact Int.natCast_nonneg _
  · cases h

/-- There is no sign in a number of a line, so it is not negative. -/
theorem nonneg_of_readNumber {cs after : List Char} {n : Int64}
    (h : readNumber cs = .ok (.int n, after)) : 0 ≤ n.toInt := by
  unfold readNumber at h
  simp only at h
  split at h
  case h_2 => cases h
  case h_1 token htoken =>
    obtain ⟨rfl, -⟩ := Prod.mk.inj (Except.ok.inj h)
    split at htoken
    case isFalse =>
      obtain ⟨x, -, hx⟩ := Option.map_eq_some_iff.mp htoken
      cases hx
    case isTrue hwhole =>
      obtain ⟨m, hm, hmn⟩ := Option.map_eq_some_iff.mp htoken
      cases hmn
      obtain ⟨value, hvalue, hword⟩ := Option.bind_eq_some_iff.mp hm
      rw [Decimal.int64?_eq_some_iff.mp hword]
      refine nonneg_of_readInt? hvalue fun hmem => ?_
      rw [Bool.and_eq_true, List.isEmpty_iff, List.isEmpty_iff] at hwhole
      rw [hwhole.1, hwhole.2, List.append_nil, List.append_nil] at hmem
      exact absurd (List.mem_takeWhile_imp (List.mem_of_mem_filter hmem)) (by decide)

/-- No token is a negative number. -/
theorem nonneg_of_mem_tokens {line : List Char} {ts : List Token} (h : tokens line = .ok ts)
    {n : Int64} (hn : .int n ∈ ts) : 0 ≤ n.toInt := by
  refine forall_mem_tokens (P := fun t => ∀ n, t = .int n → 0 ≤ n.toInt) ?_ h _ hn n rfl
  rintro c rest after t hread n rfl
  cases begins_of_readToken hread with
  | number _ hnumber => exact nonneg_of_readNumber hnumber
  | sign hsign => exact hsign.elim

/-- If no number of the tokens is negative and the expression is a number, it has a negative. -/
def Negatable (ts : List Token) (e : Expr) : Prop :=
  (∀ n, .int n ∈ ts → 0 ≤ n.toInt) → ∀ n, e = .literal (.int n) → -(2 ^ 63 - 1) ≤ n.toInt

/-- Every number but the least has its negative. -/
theorem toInt_neg_of_ne_least {n : Int64} (h : -(2 ^ 63 - 1) ≤ n.toInt) : (-n).toInt = -n.toInt := by
  have hhigh := Int64.toInt_lt n
  rw [← Int64.toInt_ofInt_of_le (n := -n.toInt) (by omega) (by omega), Int64.ofInt_neg,
    Int64.ofInt_toInt]

/-- A minus sign before an operand that can be negated makes another one. -/
theorem negatable_negated {ts : List Token} {e : Expr} (h : Negatable ts e) :
    Negatable ts (negated e) := by
  intro hts n hn
  unfold negated at hn
  split at hn
  case h_1 m =>
    cases hn
    have hm := h hts m rfl
    have hhigh := Int64.toInt_lt m
    rw [toInt_neg_of_ne_least hm]
    omega
  case h_2 | h_3 => cases hn

/-- Whole numbers are not negative before there is a minus sign. -/
theorem negatable_operand {t : Token} {rest : List Token} {e : Expr} (h : t.operand? = some e) :
    Negatable (t :: rest) e := by
  rintro hts n rfl
  have hnonneg : 0 ≤ n.toInt := by
    unfold Token.operand? at h
    split at h
    case h_1 m =>
      cases h
      exact hts n List.mem_cons_self
    case h_4 s =>
      have hname : nameExpr s = .literal (.int n) := Option.some.inj h
      unfold nameExpr at hname
      split_ifs at hname
      all_goals cases hname
    all_goals cases h
  omega

/-- Numbers that can be negated are kept by all readers. -/
theorem ofOperands_negatable : OfOperands Negatable where
  mono h hsub hmore := h fun n hn => hmore n (hsub hn)
  compound h _ n hn := by
    subst hn
    exact h.elim
  operand h := negatable_operand h
  negated h := negatable_negated h

/-- Wherever a minus sign of the line stands before a whole number, the negative of the number is a word,
and not the least one. -/
def FoldsWithin (line : List Char) : Prop :=
  ∀ before rest, tokens line = .ok (before ++ .minus :: rest) →
    ∀ steps n after, readLevel steps .sign rest = .ok (.literal (.int n), after) →
      (-n).toInt = -n.toInt ∧ -(2 ^ 63 - 1) ≤ (-n).toInt ∧ (-n).toInt ≤ 2 ^ 63 - 1

/-- On every line, each number that is read can be negated. -/
theorem foldsWithin (line : List Char) : FoldsWithin line := by
  intro before rest htokens steps n after hread
  have hnonneg : ∀ m, .int m ∈ rest → 0 ≤ m.toInt := fun m hm =>
    nonneg_of_mem_tokens htokens (List.mem_append_right _ (List.mem_cons_of_mem _ hm))
  have hlow := (ofOperands_negatable.of_read steps).1 _ _ _ _ hread hnonneg n rfl
  have hhigh := Int64.toInt_lt n
  rw [toInt_neg_of_ne_least hlow]
  exact ⟨rfl, by omega, by omega⟩

end TableScript.Script
