import TableScript.Script.Parser
import Mathlib.Data.List.Basic

/-!
# Reading expressions, piece by piece

The readers count their steps, and an expression may stand anywhere: before a comma, a bracket, an
assignment sign. `ReadsAs ts e` says that the tokens `ts` are read as `e` wherever they stand, with as
many steps as `expression` asks for or more. There is one lemma for each way to make tokens out of
others: names and literals, lists, dictionaries, and calls of methods. Arguments, items and entries have
relations of their own, with one lemma for the last of them and one for any other.

In the other direction one fact is needed: a name that is assigned to or deleted stands as a token in
its line (`mem_of_boundName?`).
-/

namespace TableScript.Script

/-- One computation after another succeeds if both do. -/
theorem except_bind_eq_ok {ε α β : Type} {x : Except ε α} {f : α → Except ε β} {b : β} :
    (x >>= f) = .ok b ↔ ∃ a, x = .ok a ∧ f a = .ok b := by
  cases x with
  | error e => simp [bind, Except.bind]
  | ok a => simp [bind, Except.bind]

/-- What a computation comes to can be found by evaluating it. -/
theorem except_eq_ok_of_mem {ε α : Type} {x : Except ε α} {a : α} (h : a ∈ x.toOption) : x = .ok a := by
  cases x with
  | error e => cases h
  | ok b => exact congrArg Except.ok (Option.some.inj h)

/-! ## Levels -/

/-- The place of a level in the order, from the loosest. -/
def Level.rank : Level → Nat
  | or => 0
  | and => 1
  | not => 2
  | comparison => 3
  | pipe => 4
  | amp => 5
  | sum => 6
  | product => 7
  | sign => 8
  | suffix => 9

/-- There are ten levels. -/
theorem Level.rank_le (level : Level) : level.rank ≤ 9 := by cases level <;> decide

/-- The next level is one tighter. -/
theorem Level.rank_next {level : Level} (h : level ≠ .suffix) : level.next.rank = level.rank + 1 := by
  cases level <;> first | rfl | exact absurd rfl h

/-- No next level is looser. -/
theorem Level.rank_le_next (level : Level) : level.rank ≤ level.next.rank := by
  cases level <;> decide

/-! ## Closing an expression -/

/-- What can follow an expression and ends it: a closing bracket, a separator, an assignment sign, or
nothing. -/
def Closes (rest : List Token) : Prop :=
  ∀ t ∈ rest.head?, t ∈ [Token.assign, .comma, .colon, .rParen, .rBracket, .rBrace]

/-- The end of the tokens closes an expression. -/
@[simp] theorem closes_nil : Closes [] := by simp [Closes]

/-- A token closes an expression if none can go on with it. -/
@[simp] theorem closes_cons (t : Token) (rest : List Token) :
    Closes (t :: rest) ↔ t ∈ [Token.assign, .comma, .colon, .rParen, .rBracket, .rBrace] := by
  simp [Closes]

/-- None of the tokens that begin an expression with an operator, as signs before operands do. -/
def BeginsOperand (ts : List Token) : Prop :=
  ∀ t ∈ ts.head?, t ∉ [Token.minus, .tilde, .plus, .name "not"]

/-- The tokens begin something, and do not close a bracket. -/
def Opens (ts : List Token) : Prop :=
  ∃ t rest, ts = t :: rest ∧ t ∉ [Token.rParen, .rBracket, .rBrace]

/-- What opens goes on to open when more follows. -/
theorem Opens.append {ts : List Token} (h : Opens ts) (more : List Token) : Opens (ts ++ more) := by
  obtain ⟨t, rest, rfl, ht⟩ := h
  exact ⟨t, rest ++ more, rfl, ht⟩

/-- No operator stands where an expression closes. -/
theorem splitOperator?_of_closes (level : Level) {rest : List Token} (h : Closes rest) :
    level.splitOperator? rest = none := by
  cases rest with
  | nil => rfl
  | cons t rest =>
    simp only [closes_cons, List.mem_cons, List.not_mem_nil, or_false] at h
    rcases h with rfl | rfl | rfl | rfl | rfl | rfl <;> cases level <;> rfl

/-- A chain ends where an expression closes. -/
theorem readOperands_of_closes (steps : Nat) (level : Level) (left : Expr) {rest : List Token}
    (h : Closes rest) : readOperands (steps + 1) level left rest = .ok (left, rest) := by
  rw [readOperands, splitOperator?_of_closes level h]

/-- So do the suffixes of an operand. -/
theorem readSuffixes_of_closes (steps : Nat) (e : Expr) {rest : List Token} (h : Closes rest) :
    readSuffixes (steps + 1) e rest = .ok (e, rest) := by
  cases rest with
  | nil => rw [readSuffixes] <;> simp
  | cons t rest =>
    simp only [closes_cons, List.mem_cons, List.not_mem_nil, or_false] at h
    rcases h with rfl | rfl | rfl | rfl | rfl | rfl <;> rw [readSuffixes] <;> simp

/-- On most levels, operands of the next tighter level stand in a chain. -/
theorem readLevel_chain {level : Level} (h : level ∈ [Level.or, .and, .pipe, .amp, .sum, .product])
    (steps : Nat) (ts : List Token) :
    readLevel (steps + 1) level ts =
      (readLevel steps level.next ts).bind fun first => readOperands steps level first.1 first.2 := by
  cases level with
  | or | and | pipe | amp | sum | product =>
    rw [readLevel]
    · rfl
    all_goals simp
  | _ => simp at h

/-- An operand that is read on one level is read on the next looser one, where no operator of that
level stands around it. -/
theorem readLevel_of_next (level : Level) {steps : Nat} {ts rest : List Token} {e : Expr}
    (hlevel : level ≠ .suffix) (hbegins : BeginsOperand ts) (hrest : Closes rest)
    (h : readLevel (steps + 1) level.next ts = .ok (e, rest)) :
    readLevel (steps + 2) level ts = .ok (e, rest) := by
  have hhead : ∀ t more, ts = t :: more → t ∉ [Token.minus, .tilde, .plus, .name "not"] := by
    rintro t more rfl
    exact hbegins t rfl
  cases level with
  | suffix => exact absurd rfl hlevel
  | not =>
    rw [readLevel]
    · exact h
    · rintro more rfl
      exact absurd (hhead _ _ rfl) (by simp)
  | comparison =>
    rw [Level.next] at h
    rw [readLevel, h]
    simp only [splitOperator?_of_closes .comparison hrest, bind, Except.bind, pure, Except.pure]
  | sign =>
    rw [readLevel]
    · exact h
    · rintro more rfl
      exact absurd (hhead _ _ rfl) (by simp)
    · rintro more rfl
      exact absurd (hhead _ _ rfl) (by simp)
    · rintro more rfl
      exact absurd (hhead _ _ rfl) (by simp)
  | or | and | pipe | amp | sum | product =>
    rw [readLevel_chain (by simp), h]
    exact readOperands_of_closes steps _ e hrest

/-- A token that is an operand by itself is read as that operand, whatever follows it. -/
theorem readPrimary_of_operand {t : Token} {e : Expr} (h : t.operand? = some e) (steps : Nat)
    (rest : List Token) : readPrimary (steps + 1) (t :: rest) = .ok (e, rest) := by
  rw [readPrimary, h]
  -- The tokens that open brackets are no operands by themselves.
  all_goals
    intros
    subst t
    cases h

/-- An operand without operators around it is an expression. -/
theorem readLevel_or_of_suffix {steps : Nat} {ts rest : List Token} {e : Expr}
    (hbegins : BeginsOperand ts) (hrest : Closes rest)
    (h : readLevel (steps + 1) .suffix ts = .ok (e, rest)) :
    readLevel (steps + 10) .or ts = .ok (e, rest) := by
  have hsign := readLevel_of_next .sign (by simp) hbegins hrest h
  have hproduct := readLevel_of_next .product (by simp) hbegins hrest hsign
  have hsum := readLevel_of_next .sum (by simp) hbegins hrest hproduct
  have hamp := readLevel_of_next .amp (by simp) hbegins hrest hsum
  have hpipe := readLevel_of_next .pipe (by simp) hbegins hrest hamp
  have hcomparison := readLevel_of_next .comparison (by simp) hbegins hrest hpipe
  have hnot := readLevel_of_next .not (by simp) hbegins hrest hcomparison
  have hand := readLevel_of_next .and (by simp) hbegins hrest hnot
  exact readLevel_of_next .or (by simp) hbegins hrest hand

/-! ## Expressions -/

/-- The tokens are read as the expression wherever they stand. -/
structure ReadsAs (ts : List Token) (e : Expr) : Prop where
  opens : Opens ts
  reads : ∀ steps rest, 12 * ts.length ≤ steps → Closes rest →
    readLevel steps .or (ts ++ rest) = .ok (e, rest)

namespace ReadsAs

/-- Tokens that stand by themselves are an expression. -/
theorem expression_append {ts : List Token} {e : Expr} (h : ReadsAs ts e) {rest : List Token}
    (hrest : Closes rest) : expression (ts ++ rest) = .ok (e, rest) :=
  h.reads _ rest (by simp only [List.length_append]; omega) hrest

/-- Tokens of an expression are read as it, and nothing is left. -/
theorem expression_eq {ts : List Token} {e : Expr} (h : ReadsAs ts e) :
    expression ts = .ok (e, []) := by
  have := h.expression_append closes_nil
  rwa [List.append_nil] at this

/-- An operand with its suffixes is an expression if it can be read with the steps that are left on its
level. -/
theorem of_suffix {ts : List Token} {e : Expr} (hopens : Opens ts) (hbegins : BeginsOperand ts)
    (h : ∀ steps rest, 12 * ts.length ≤ steps + 10 → Closes rest →
      readLevel (steps + 1) .suffix (ts ++ rest) = .ok (e, rest)) : ReadsAs ts e := by
  refine ⟨hopens, fun steps rest hsteps hrest => ?_⟩
  obtain ⟨t, more, rfl, -⟩ := hopens
  rw [List.length_cons] at hsteps
  obtain ⟨k, rfl⟩ : ∃ k, steps = k + 10 := ⟨steps - 10, by omega⟩
  exact readLevel_or_of_suffix (fun u hu => hbegins u (by simpa using hu)) hrest
    (h k rest (by simpa using hsteps) hrest)

/-- One token that is an operand by itself. -/
theorem of_token {t : Token} {e : Expr} (hopens : t ∉ [Token.rParen, .rBracket, .rBrace])
    (hbegins : t ∉ [Token.minus, .tilde, .plus, .name "not"]) (h : t.operand? = some e) :
    ReadsAs [t] e := by
  refine of_suffix ⟨t, [], rfl, hopens⟩ (by simpa [BeginsOperand] using hbegins) ?_
  intro steps rest hsteps hrest
  obtain ⟨k, rfl⟩ : ∃ k, steps = k + 1 := ⟨steps - 1, by simp at hsteps; omega⟩
  rw [readLevel, List.singleton_append, readPrimary_of_operand h k rest]
  exact readSuffixes_of_closes k e hrest

/-- A text is an expression. -/
theorem str (s : String) : ReadsAs [.str s] (.literal (.str s)) := of_token (by simp) (by simp) rfl

/-- So is a whole number. -/
theorem int (n : Int64) : ReadsAs [.int n] (.literal (.int n)) := of_token (by simp) (by simp) rfl

/-- So is a name, but for one word. -/
theorem name {s : String} (h : s ≠ "not") : ReadsAs [.name s] (nameExpr s) :=
  of_token (by simp) (by simpa using h) rfl

end ReadsAs

/-! ## Lists and dictionaries -/

/-- The tokens are the items of a list, up to its closing bracket. -/
def ReadsItems (ts : List Token) (items : List Expr) : Prop :=
  ∀ steps rest, 12 * ts.length + 1 ≤ steps →
    readItems steps (ts ++ .rBracket :: rest) = .ok (items, rest)

/-- The tokens are the entries of a dictionary, up to its closing brace. -/
def ReadsEntries (ts : List Token) (entries : List (Expr × Expr)) : Prop :=
  ∀ steps rest, 12 * ts.length + 1 ≤ steps →
    readEntries steps (ts ++ .rBrace :: rest) = .ok (entries, rest)

/-- A comma after which the list goes on. -/
theorem afterItem_comma {close : Token} {more : List Token} (h : more.head? ≠ some close) :
    afterItem close (.comma :: more) = .ok (false, more) := by
  cases more with
  | nil => rfl
  | cons t more => simp [afterItem, show t ≠ close by simpa using h]

/-- The closing token ends a list. -/
theorem afterItem_close (close : Token) (h : close ≠ .comma) (rest : List Token) :
    afterItem close (close :: rest) = .ok (true, rest) := by
  unfold afterItem
  split
  case h_1 heq => exact absurd (List.cons.inj heq).1 h
  case h_2 => simp [expect, Except.map]

/-- What opens is not a closing bracket. -/
theorem Opens.head?_ne {ts : List Token} (h : Opens ts) {close : Token}
    (hclose : close ∈ [Token.rParen, .rBracket, .rBrace]) : ts.head? ≠ some close := by
  obtain ⟨t, rest, rfl, ht⟩ := h
  intro heq
  rw [List.head?_cons, Option.some.injEq] at heq
  exact ht (heq ▸ hclose)

/-- An expression is one item. -/
theorem ReadsItems.single {ts : List Token} {e : Expr} (h : ReadsAs ts e) : ReadsItems ts [e] := by
  intro steps rest hsteps
  obtain ⟨k, rfl⟩ : ∃ k, steps = k + 1 := ⟨steps - 1, by omega⟩
  rw [readItems, h.reads k _ (by omega) (by simp)]
  simp only [afterItem_close .rBracket (by simp), bind, Except.bind, pure, Except.pure,
    if_true]

/-- An expression, a comma and items are items. -/
theorem ReadsItems.cons {ts more : List Token} {e : Expr} {es : List Expr} (h : ReadsAs ts e)
    (hopens : Opens more) (hmore : ReadsItems more es) :
    ReadsItems (ts ++ .comma :: more) (e :: es) := by
  intro steps rest hsteps
  simp only [List.length_append, List.length_cons] at hsteps
  obtain ⟨k, rfl⟩ : ∃ k, steps = k + 1 := ⟨steps - 1, by omega⟩
  have hcomma : afterItem .rBracket (.comma :: (more ++ .rBracket :: rest)) =
      .ok (false, more ++ .rBracket :: rest) :=
    afterItem_comma ((hopens.append _).head?_ne (by simp))
  rw [readItems, List.append_assoc, List.cons_append, h.reads k _ (by omega) (by simp)]
  simp only [hcomma, hmore k rest (by omega), bind, Except.bind, pure, Except.pure,
    Bool.false_eq_true, if_false]

/-- A key, a colon and a value are one entry. -/
theorem ReadsEntries.single {ks vs : List Token} {key value : Expr} (hkey : ReadsAs ks key)
    (hvalue : ReadsAs vs value) : ReadsEntries (ks ++ .colon :: vs) [(key, value)] := by
  intro steps rest hsteps
  simp only [List.length_append, List.length_cons] at hsteps
  obtain ⟨k, rfl⟩ : ∃ k, steps = k + 1 := ⟨steps - 1, by omega⟩
  rw [readEntries, List.append_assoc, List.cons_append, hkey.reads k _ (by omega) (by simp)]
  simp only [expect, if_true, hvalue.reads k (.rBrace :: rest) (by omega) (by simp),
    afterItem_close .rBrace (by simp), bind, Except.bind, pure, Except.pure]

/-- An entry, a comma and entries are entries. -/
theorem ReadsEntries.cons {ks vs more : List Token} {key value : Expr} {entries : List (Expr × Expr)}
    (hkey : ReadsAs ks key) (hvalue : ReadsAs vs value) (hopens : Opens more)
    (hmore : ReadsEntries more entries) :
    ReadsEntries (ks ++ .colon :: vs ++ .comma :: more) ((key, value) :: entries) := by
  intro steps rest hsteps
  simp only [List.length_append, List.length_cons] at hsteps
  obtain ⟨k, rfl⟩ : ∃ k, steps = k + 1 := ⟨steps - 1, by omega⟩
  have hcomma : afterItem .rBrace (.comma :: (more ++ .rBrace :: rest)) =
      .ok (false, more ++ .rBrace :: rest) :=
    afterItem_comma ((hopens.append _).head?_ne (by simp))
  have happend : ks ++ .colon :: vs ++ .comma :: more ++ .rBrace :: rest =
      ks ++ .colon :: (vs ++ .comma :: (more ++ .rBrace :: rest)) := by simp
  rw [readEntries, happend, hkey.reads k _ (by omega) (by simp)]
  simp only [expect, if_true, hvalue.reads k (.comma :: (more ++ .rBrace :: rest)) (by omega) (by simp),
    hcomma, hmore k rest (by omega), bind, Except.bind, pure, Except.pure, Bool.false_eq_true, if_false]

/-- A list without items. -/
theorem ReadsAs.emptyList : ReadsAs [.lBracket, .rBracket] (.list []) := by
  refine of_suffix ⟨.lBracket, [.rBracket], rfl, by simp⟩ (by simp [BeginsOperand]) ?_
  intro steps rest hsteps hrest
  obtain ⟨k, rfl⟩ : ∃ k, steps = k + 1 := ⟨steps - 1, by simp at hsteps; omega⟩
  rw [readLevel, List.cons_append, List.singleton_append, readPrimary]
  exact readSuffixes_of_closes k _ hrest

/-- The items of a list in their brackets. -/
theorem ReadsItems.readPrimary {ts : List Token} {items : List Expr} (hopens : Opens ts)
    (h : ReadsItems ts items) {steps : Nat} (hsteps : 12 * ts.length + 1 ≤ steps) (rest : List Token) :
    readPrimary (steps + 1) (.lBracket :: (ts ++ [.rBracket]) ++ rest) = .ok (.list items, rest) := by
  have happend : .lBracket :: (ts ++ [.rBracket]) ++ rest = .lBracket :: (ts ++ .rBracket :: rest) := by
    simp
  rw [happend, Script.readPrimary, h steps rest hsteps]
  · rfl
  · rintro more heq
    exact absurd (congrArg List.head? heq) ((hopens.append _).head?_ne (by simp))

/-- The entries of a dictionary in their braces. -/
theorem ReadsEntries.readPrimary {ts : List Token} {entries : List (Expr × Expr)} (hopens : Opens ts)
    (h : ReadsEntries ts entries) {steps : Nat} (hsteps : 12 * ts.length + 1 ≤ steps)
    (rest : List Token) :
    readPrimary (steps + 1) (.lBrace :: (ts ++ [.rBrace]) ++ rest) = .ok (.dict entries, rest) := by
  have happend : .lBrace :: (ts ++ [.rBrace]) ++ rest = .lBrace :: (ts ++ .rBrace :: rest) := by simp
  rw [happend, Script.readPrimary, h steps rest hsteps]
  · rfl
  · rintro more heq
    exact absurd (congrArg List.head? heq) ((hopens.append _).head?_ne (by simp))

/-- Items in brackets are a list. -/
theorem ReadsAs.list {ts : List Token} {items : List Expr} (hopens : Opens ts)
    (h : ReadsItems ts items) : ReadsAs (.lBracket :: (ts ++ [.rBracket])) (.list items) := by
  refine of_suffix ⟨.lBracket, _, rfl, by simp⟩ (by simp [BeginsOperand]) ?_
  intro steps rest hsteps hrest
  simp only [List.length_cons, List.length_append, List.length_nil] at hsteps
  obtain ⟨k, rfl⟩ : ∃ k, steps = k + 1 := ⟨steps - 1, by omega⟩
  rw [readLevel, h.readPrimary hopens (by omega)]
  exact readSuffixes_of_closes k _ hrest

/-- Entries in braces are a dictionary. -/
theorem ReadsAs.dict {ts : List Token} {entries : List (Expr × Expr)} (hopens : Opens ts)
    (h : ReadsEntries ts entries) : ReadsAs (.lBrace :: (ts ++ [.rBrace])) (.dict entries) := by
  refine of_suffix ⟨.lBrace, _, rfl, by simp⟩ (by simp [BeginsOperand]) ?_
  intro steps rest hsteps hrest
  simp only [List.length_cons, List.length_append, List.length_nil] at hsteps
  obtain ⟨k, rfl⟩ : ∃ k, steps = k + 1 := ⟨steps - 1, by omega⟩
  rw [readLevel, h.readPrimary hopens (by omega)]
  exact readSuffixes_of_closes k _ hrest

/-! ## Calls -/

/-- The tokens are the arguments of a call, up to its closing parenthesis, those in `named` having been
read before them, the last first. -/
def ReadsArguments (named : List (String × Expr)) (ts : List Token) (args : Arguments) : Prop :=
  ∀ steps rest, 12 * ts.length + 1 ≤ steps →
    readArguments steps named (ts ++ .rParen :: rest) = .ok (args, rest)

namespace ReadsArguments

variable {named keywords : List (String × Expr)} {positional : List Expr} {s : String}
  {ts more : List Token} {e : Expr}

/-- A name, an assignment sign and an expression are the last argument. -/
theorem lastKeyword (h : ReadsAs ts e) :
    ReadsArguments named (.name s :: .assign :: ts) ⟨[], named.reverse ++ [(s, e)]⟩ := by
  intro steps rest hsteps
  simp only [List.length_cons] at hsteps
  obtain ⟨k, rfl⟩ : ∃ k, steps = k + 1 := ⟨steps - 1, by omega⟩
  rw [List.cons_append, List.cons_append, readArguments, h.reads k _ (by omega) (by simp)]
  simp only [afterItem_close .rParen (by simp), bind, Except.bind, pure, Except.pure,
    if_true]

/-- With a comma and arguments after them they are arguments. -/
theorem consKeyword (h : ReadsAs ts e) (hopens : Opens more)
    (hmore : ReadsArguments ((s, e) :: named) more ⟨positional, keywords⟩) :
    ReadsArguments named (.name s :: .assign :: (ts ++ .comma :: more)) ⟨positional, keywords⟩ := by
  intro steps rest hsteps
  simp only [List.length_cons, List.length_append] at hsteps
  obtain ⟨k, rfl⟩ : ∃ k, steps = k + 1 := ⟨steps - 1, by omega⟩
  have hcomma : afterItem .rParen (.comma :: (more ++ .rParen :: rest)) =
      .ok (false, more ++ .rParen :: rest) :=
    afterItem_comma ((hopens.append _).head?_ne (by simp))
  rw [List.cons_append, List.cons_append, readArguments, List.append_assoc, List.cons_append,
    h.reads k _ (by omega) (by simp)]
  simp only [hcomma, hmore k rest (by omega), bind, Except.bind, Bool.false_eq_true, if_false]

/-- What does not begin as an argument given by name does not do so before a token other than an equals
sign. -/
theorem ne_keyword_append (hopens : Opens ts)
    (hunnamed : ∀ s rest, ts ≠ .name s :: .assign :: rest) {t : Token} (ht : t ≠ .assign)
    (more : List Token) : ∀ s rest, ts ++ t :: more ≠ .name s :: .assign :: rest := by
  intro s rest heq
  obtain ⟨first, others, rfl, -⟩ := hopens
  cases others with
  | nil =>
    simp only [List.cons_append, List.nil_append, List.cons.injEq] at heq
    exact ht heq.2.1
  | cons second others =>
    simp only [List.cons_append, List.cons.injEq] at heq
    obtain ⟨rfl, rfl, -⟩ := heq
    exact hunnamed s others rfl

/-- An argument that does not begin as one given by name. -/
theorem cons (h : ReadsAs ts e) (hopens : Opens more)
    (hunnamed : ∀ s rest, ts ++ .comma :: more ≠ .name s :: .assign :: rest)
    (hmore : ReadsArguments [] more ⟨positional, keywords⟩) :
    ReadsArguments [] (ts ++ .comma :: more) ⟨e :: positional, keywords⟩ := by
  intro steps rest hsteps
  simp only [List.length_cons, List.length_append] at hsteps
  obtain ⟨k, rfl⟩ : ∃ k, steps = k + 1 := ⟨steps - 1, by omega⟩
  have hcomma : afterItem .rParen (.comma :: (more ++ .rParen :: rest)) =
      .ok (false, more ++ .rParen :: rest) :=
    afterItem_comma ((hopens.append _).head?_ne (by simp))
  have happend : ts ++ .comma :: more ++ .rParen :: rest =
      ts ++ .comma :: (more ++ .rParen :: rest) := by simp
  rw [readArguments, happend, h.reads k _ (by omega) (by simp)]
  · simp only [List.isEmpty_nil, if_true, hcomma, hmore k rest (by omega), bind, Except.bind, pure,
      Except.pure, Bool.false_eq_true, if_false]
  · rw [happend]
    refine ne_keyword_append h.opens (fun s after heq => ?_) (show Token.comma ≠ .assign by simp) _
    exact hunnamed s (after ++ .comma :: more) (congrArg (· ++ .comma :: more) heq)

/-- An expression that no assignment sign follows is the last argument given by position. -/
theorem lastPositional (h : ReadsAs ts e) (hunnamed : ∀ s rest, ts ≠ .name s :: .assign :: rest) :
    ReadsArguments [] ts ⟨[e], []⟩ := by
  intro steps rest hsteps
  obtain ⟨k, rfl⟩ : ∃ k, steps = k + 1 := ⟨steps - 1, by omega⟩
  rw [readArguments, h.reads k _ (by omega) (by simp)]
  · simp only [List.isEmpty_nil, if_true, afterItem_close .rParen (by simp), bind,
      Except.bind, pure, Except.pure]
  · exact ne_keyword_append h.opens hunnamed (show Token.rParen ≠ .assign by simp) rest

end ReadsArguments

/-- A method called on what a name stands for. -/
theorem ReadsAs.methodCall {object method : String} {ts : List Token} {positional : List Expr}
    {keywords : List (String × Expr)} (hobject : object ≠ "not") (hopens : Opens ts)
    (h : ReadsArguments [] ts ⟨positional, keywords⟩) :
    ReadsAs (.name object :: .dot :: .name method :: .lParen :: (ts ++ [.rParen]))
      (.call (.member (nameExpr object) method) positional keywords) := by
  refine of_suffix ⟨.name object, _, rfl, by simp⟩ (by simpa [BeginsOperand] using hobject) ?_
  intro steps rest hsteps hrest
  simp only [List.length_cons, List.length_append, List.length_nil] at hsteps
  obtain ⟨k, rfl⟩ : ∃ k, steps = k + 3 := ⟨steps - 3, by omega⟩
  have happend : ts ++ [.rParen] ++ rest = ts ++ .rParen :: rest := by simp
  have hcall : readSuffixes (k + 2) (.member (nameExpr object) method)
      (.lParen :: (ts ++ .rParen :: rest)) =
      .ok (.call (.member (nameExpr object) method) positional keywords, rest) := by
    obtain ⟨t, more, rfl, ht⟩ := hopens
    rw [readSuffixes, h (k + 1) rest (by omega)]
    · exact readSuffixes_of_closes k _ hrest
    · rintro after heq
      exact ht (by simp [(List.cons.inj heq).1])
  simp only [List.cons_append, happend]
  rw [readLevel, readPrimary_of_operand rfl]
  simp only [bind, Except.bind]
  rw [readSuffixes]
  simp only [expectName, bind, Except.bind, hcall]

/-! ## Statements -/

/-- But for three words a name is just a name. -/
theorem nameExpr_eq {s : String} (h : s ∉ ["True", "False", "None"]) : nameExpr s = .name s := by
  simp only [List.mem_cons, List.not_mem_nil, or_false, not_or] at h
  rw [nameExpr, if_neg h.1, if_neg h.2.1, if_neg h.2.2]

/-- A line that gives a name to an expression. -/
theorem statement_assign {s : String} {ts : List Token} {e : Expr}
    (hs : s ∉ ["import", "del", "not", "True", "False", "None"]) (h : expression ts = .ok (e, [])) :
    statement (.name s :: .assign :: ts) = .ok (.assign (.name s) e, []) := by
  simp only [List.mem_cons, List.not_mem_nil, or_false, not_or] at hs
  have hname : expression (.name s :: .assign :: ts) = .ok (.name s, .assign :: ts) := by
    rw [← nameExpr_eq (s := s) (by simp [hs])]
    exact (ReadsAs.name hs.2.2.1).expression_append (by simp)
  rw [statement, hname]
  · simp only [targetOf, h, bind, Except.bind, pure, Except.pure]
  · rintro rest heq
    obtain ⟨hname, -⟩ := List.cons.inj heq
    exact hs.1 (Token.name.inj hname)
  · rintro rest heq
    obtain ⟨hname, -⟩ := List.cons.inj heq
    exact hs.2.1 (Token.name.inj hname)

/-- A line that is an expression. -/
theorem statement_expression {ts : List Token} {e : Expr}
    (hfirst : ∀ t ∈ ts.head?, t ≠ .name "import" ∧ t ≠ .name "del")
    (h : expression ts = .ok (e, [])) : statement ts = .ok (.expr e, []) := by
  rw [statement, h]
  · rfl
  · rintro rest rfl
    exact (hfirst _ rfl).1 rfl
  · rintro rest rfl
    exact (hfirst _ rfl).2 rfl

/-- What a line that is an expression consists of. -/
theorem expression_of_statement {ts rest : List Token} {e : Expr}
    (h : statement ts = .ok (.expr e, rest)) : expression ts = .ok (e, rest) := by
  unfold statement at h
  split at h
  · obtain ⟨⟨module, after⟩, -, h⟩ := except_bind_eq_ok.mp h
    simp only at h
    split at h
    · obtain ⟨⟨short, after⟩, -, h⟩ := except_bind_eq_ok.mp h
      cases h
    · cases h
  · obtain ⟨⟨e, after⟩, -, h⟩ := except_bind_eq_ok.mp h
    obtain ⟨target, -, h⟩ := except_bind_eq_ok.mp h
    cases h
  case h_3 =>
    obtain ⟨⟨e', after⟩, hread, h⟩ := except_bind_eq_ok.mp h
    simp only at h
    split at h
    · obtain ⟨target, -, h⟩ := except_bind_eq_ok.mp h
      obtain ⟨⟨value, afterValue⟩, -, h⟩ := except_bind_eq_ok.mp h
      cases h
    · cases h
      exact hread

/-- The statement of a line whose tokens are one statement. -/
theorem lineStatement?_eq {line : List Char} {ts : List Token} {s : Statement}
    (htokens : tokens line = .ok ts) (hne : ts ≠ []) (h : statement ts = .ok (s, [])) :
    lineStatement? line = .ok (some s) := by
  have hempty : ts.isEmpty = false := List.isEmpty_eq_false_iff.mpr hne
  simp only [lineStatement?, htokens, hempty, h, bind, Except.bind, pure, Except.pure,
    Bool.false_eq_true, if_false]

/-- A line without tokens has no statement. -/
theorem lineStatement?_of_nil {line : List Char} (htokens : tokens line = .ok []) :
    lineStatement? line = .ok none := by
  simp [lineStatement?, htokens, bind, Except.bind, pure, Except.pure]

/-- A line has a statement exactly if its tokens are one. -/
theorem lineStatement?_ok_iff {line : List Char} {s? : Option Statement} :
    lineStatement? line = .ok s? ↔ ∃ ts, tokens line = .ok ts ∧
      ((ts = [] ∧ s? = none) ∨ (ts ≠ [] ∧ ∃ s, statement ts = .ok (s, []) ∧ s? = some s)) := by
  constructor
  · intro h
    cases htokens : tokens line with
    | error e => simp [lineStatement?, htokens, bind, Except.bind] at h
    | ok ts =>
      refine ⟨ts, rfl, ?_⟩
      cases ts with
      | nil =>
        rw [lineStatement?_of_nil htokens] at h
        exact Or.inl ⟨rfl, (Except.ok.inj h).symm⟩
      | cons t more =>
        refine Or.inr ⟨by simp, ?_⟩
        cases hstatement : statement (t :: more) with
        | error e => simp [lineStatement?, htokens, hstatement, bind, Except.bind] at h
        | ok read =>
          obtain ⟨s, rest⟩ := read
          cases rest with
          | nil =>
            rw [lineStatement?_eq htokens (by simp) hstatement] at h
            exact ⟨s, rfl, (Except.ok.inj h).symm⟩
          | cons u us => simp [lineStatement?, htokens, hstatement, bind, Except.bind] at h
  · rintro ⟨ts, htokens, ⟨rfl, rfl⟩ | ⟨hne, s, hs, rfl⟩⟩
    · exact lineStatement?_of_nil htokens
    · exact lineStatement?_eq htokens hne hs

/-! ## Lines that cannot be read -/

/-- No operand begins with a dot. -/
theorem readLevel_dot (steps : Nat) (level : Level) (ts : List Token) :
    ∀ read, readLevel steps level (.dot :: ts) ≠ .ok read := by
  induction steps generalizing level with
  | zero =>
    intro read h
    rw [readLevel] at h
    cases h
  | succ steps ih =>
    have hbind : ∀ {level : Level} {f : Expr × List Token → Reading (Expr × List Token)} {read},
        (readLevel steps level (.dot :: ts) >>= f) ≠ .ok read := by
      intro level f read h
      obtain ⟨first, hfirst, -⟩ := except_bind_eq_ok.mp h
      exact ih level first hfirst
    intro read h
    cases level with
    | not =>
      rw [readLevel] at h
      · exact ih _ read h
      · simp
    | comparison =>
      rw [readLevel] at h
      exact hbind h
    | sign =>
      rw [readLevel] at h
      · exact ih _ read h
      all_goals simp
    | suffix =>
      rw [readLevel] at h
      obtain ⟨first, hfirst, -⟩ := except_bind_eq_ok.mp h
      cases steps <;> rw [readPrimary] at hfirst <;> cases hfirst
    | or | and | pipe | amp | sum | product =>
      rw [readLevel_chain (by simp)] at h
      exact hbind h

/-- After a negation, an operand has to begin. -/
theorem readLevel_not_dot (steps : Nat) {level : Level} (hlevel : level ∈ [Level.or, .and, .not])
    (ts : List Token) : ∀ read, readLevel steps level (.name "not" :: .dot :: ts) ≠ .ok read := by
  induction steps generalizing level with
  | zero =>
    intro read h
    rw [readLevel] at h
    cases h
  | succ steps ih =>
    intro read h
    cases level with
    | not =>
      rw [readLevel] at h
      obtain ⟨first, hfirst, -⟩ := except_bind_eq_ok.mp h
      exact readLevel_dot steps .not ts first hfirst
    | or | and =>
      rw [readLevel_chain (by simp)] at h
      obtain ⟨first, hfirst, -⟩ := except_bind_eq_ok.mp h
      exact ih (by simp [Level.next]) first hfirst
    | _ => simp at hlevel

/-- Words that a line takes for itself do not stand before a dot at its beginning. -/
theorem statement_method_ne {name : String} (h : name ∈ ["import", "del", "not"]) (ts : List Token) :
    ∀ read, statement (.name name :: .dot :: ts) ≠ .ok read := by
  intro read hread
  simp only [List.mem_cons, List.not_mem_nil, or_false] at h
  rcases h with rfl | rfl | rfl
  · cases hread
  · rw [statement] at hread
    obtain ⟨first, hfirst, -⟩ := except_bind_eq_ok.mp hread
    exact readLevel_dot _ _ ts first hfirst
  · rw [statement] at hread
    · obtain ⟨first, hfirst, -⟩ := except_bind_eq_ok.mp hread
      exact readLevel_not_dot _ (by simp) ts first hfirst
    all_goals simp

/-- Nor does a negation stand before a dot after an assignment sign. -/
theorem statement_binding_ne {s : String} (hs : s ∉ ["import", "del", "not", "True", "False", "None"])
    (ts : List Token) : ∀ read, statement (.name s :: .assign :: .name "not" :: .dot :: ts) ≠ .ok read := by
  intro read h
  simp only [List.mem_cons, List.not_mem_nil, or_false, not_or] at hs
  have hname : expression (.name s :: .assign :: .name "not" :: .dot :: ts) =
      .ok (.name s, .assign :: .name "not" :: .dot :: ts) := by
    rw [← nameExpr_eq (s := s) (by simp [hs])]
    exact (ReadsAs.name hs.2.2.1).expression_append (by simp)
  rw [statement, hname] at h
  · obtain ⟨first, hfirst, h⟩ := except_bind_eq_ok.mp h
    cases hfirst
    obtain ⟨target, -, h⟩ := except_bind_eq_ok.mp h
    obtain ⟨value, hvalue, -⟩ := except_bind_eq_ok.mp h
    exact readLevel_not_dot _ (by simp) ts value hvalue
  all_goals simp [hs]

/-- A line whose tokens are no statement cannot be read. -/
theorem lineStatement?_ne {line : List Char} {ts : List Token} {x : Except SyntaxError (List Token)}
    (htokens : tokens line = x.map (ts ++ ·)) (hne : ts ≠ [])
    (h : ∀ more read, statement (ts ++ more) ≠ .ok read) : ∀ s?, lineStatement? line ≠ .ok s? := by
  intro s? hs
  obtain ⟨all, hall, hcases⟩ := lineStatement?_ok_iff.mp hs
  rw [htokens] at hall
  cases x with
  | error e => cases hall
  | ok more =>
    cases hall
    rcases hcases with ⟨hnil, -⟩ | ⟨-, s, hstatement, -⟩
    · exact hne (List.append_eq_nil_iff.mp hnil).1
    · exact h more _ hstatement

/-! ## Single operands

An expression that is read is one operand, in parentheses and behind signs or not, or it is made of
several. What holds of all operands that tokens are therefore holds of every expression that is one.
-/

/-- The expression is neither a value nor a name. -/
def Compound : Expr → Prop
  | .literal _ => False
  | .name _ => False
  | _ => True

/-- Operands joined by operators are compound. -/
theorem eq_or_compound_of_readOperands {steps : Nat} {level : Level} {left e : Expr}
    {ts rest : List Token} (h : readOperands steps level left ts = .ok (e, rest)) :
    e = left ∨ Compound e := by
  induction steps generalizing left ts with
  | zero => rw [readOperands] at h; cases h
  | succ steps ih =>
    rw [readOperands] at h
    split at h
    case h_1 op after _ =>
      obtain ⟨⟨right, afterRight⟩, -, h⟩ := except_bind_eq_ok.mp h
      rcases ih h with rfl | hcompound
      · exact Or.inr trivial
      · exact Or.inr hcompound
    case h_2 =>
      cases h
      exact Or.inl rfl

/-- An operand with suffixes is compound. -/
theorem eq_or_compound_of_readSuffixes {steps : Nat} {left e : Expr} {ts rest : List Token}
    (h : readSuffixes steps left ts = .ok (e, rest)) : e = left ∨ Compound e := by
  induction steps generalizing left ts with
  | zero => rw [readSuffixes] at h; cases h
  | succ steps ih =>
    have hstep : ∀ {inner : Expr} {ts : List Token}, readSuffixes steps inner ts = .ok (e, rest) →
        Compound inner → Compound e := by
      intro inner ts h hcompound
      rcases ih h with rfl | h'
      · exact hcompound
      · exact h'
    unfold readSuffixes at h
    split at h
    · obtain ⟨⟨position, afterPosition⟩, -, h⟩ := except_bind_eq_ok.mp h
      obtain ⟨after, -, h⟩ := except_bind_eq_ok.mp h
      exact Or.inr (hstep h trivial)
    · obtain ⟨⟨name, after⟩, -, h⟩ := except_bind_eq_ok.mp h
      exact Or.inr (hstep h trivial)
    · refine Or.inr ?_
      simp only at h
      split at h
      all_goals
        obtain ⟨⟨arguments, after⟩, -, h⟩ := except_bind_eq_ok.mp h
        exact hstep h trivial
    · cases h
      exact Or.inl rfl

/-- A property of expressions read from tokens that says nothing of compound ones, and that operands keep
behind a minus sign. -/
structure OfOperands (P : List Token → Expr → Prop) : Prop where
  mono : ∀ {ts more e}, P ts e → ts ⊆ more → P more e
  compound : ∀ {ts e}, Compound e → P ts e
  operand : ∀ {t rest e}, Token.operand? t = some e → P (t :: rest) e
  negated : ∀ {ts e}, P ts e → P ts (negated e)

section OfOperands

variable {P : List Token → Expr → Prop} (hP : OfOperands P) {steps : Nat}
  (hlevel : ∀ level ts e rest, readLevel steps level ts = .ok (e, rest) → P ts e)

include hP hlevel

/-- What holds of everything that is read inside holds of an operand without signs and suffixes. -/
theorem OfOperands.of_readPrimary {ts rest : List Token} {e : Expr}
    (h : readPrimary (steps + 1) ts = .ok (e, rest)) : P ts e := by
  unfold readPrimary at h
  split at h
  case h_1 rest' =>
    obtain ⟨⟨inner, afterInner⟩, hinner, h⟩ := except_bind_eq_ok.mp h
    obtain ⟨after, -, h⟩ := except_bind_eq_ok.mp h
    cases h
    exact hP.mono (hlevel _ _ _ _ hinner) (List.subset_cons_self _ _)
  case h_3 | h_5 =>
    obtain ⟨⟨inner, after⟩, -, h⟩ := except_bind_eq_ok.mp h
    cases h
    exact hP.compound trivial
  case h_2 | h_4 =>
    cases h
    exact hP.compound trivial
  case h_6 =>
    split at h
    case h_1 hoperand =>
      cases h
      exact hP.operand hoperand
    case h_2 => cases h
  case h_7 => cases h

/-- The same for an expression on a level. -/
theorem OfOperands.of_readLevel (hprimary : ∀ ts e rest, readPrimary steps ts = .ok (e, rest) → P ts e)
    {level : Level} {ts rest : List Token} {e : Expr}
    (h : readLevel (steps + 1) level ts = .ok (e, rest)) : P ts e := by
  -- an operator makes the expression compound, and without one it was read further down
  cases level with
  | not =>
    unfold readLevel at h
    split at h
    · obtain ⟨⟨operand, after⟩, -, h⟩ := except_bind_eq_ok.mp h
      cases h
      exact hP.compound trivial
    · exact hlevel _ _ _ _ h
  | comparison =>
    rw [readLevel] at h
    obtain ⟨⟨left, after⟩, hleft, h⟩ := except_bind_eq_ok.mp h
    simp only at h
    split at h
    · obtain ⟨⟨right, afterRight⟩, -, h⟩ := except_bind_eq_ok.mp h
      cases h
      exact hP.compound trivial
    · cases h
      exact hlevel _ _ _ _ hleft
  | sign =>
    unfold readLevel at h
    split at h
    · obtain ⟨⟨operand, after⟩, hoperand, h⟩ := except_bind_eq_ok.mp h
      cases h
      exact hP.negated (hP.mono (hlevel _ _ _ _ hoperand) (List.subset_cons_self _ _))
    · obtain ⟨⟨operand, after⟩, -, h⟩ := except_bind_eq_ok.mp h
      cases h
      exact hP.compound trivial
    · exact hP.mono (hlevel _ _ _ _ h) (List.subset_cons_self _ _)
    · exact hlevel _ _ _ _ h
  | suffix =>
    rw [readLevel] at h
    obtain ⟨⟨left, after⟩, hleft, h⟩ := except_bind_eq_ok.mp h
    rcases eq_or_compound_of_readSuffixes h with rfl | hcompound
    · exact hprimary _ _ _ hleft
    · exact hP.compound hcompound
  | or | and | pipe | amp | sum | product =>
    rw [readLevel_chain (by simp)] at h
    obtain ⟨⟨left, after⟩, hleft, h⟩ := except_bind_eq_ok.mp h
    rcases eq_or_compound_of_readOperands h with rfl | hcompound
    · exact hlevel _ _ _ _ hleft
    · exact hP.compound hcompound

end OfOperands

/-- What holds of operands holds of what is read. -/
theorem OfOperands.of_read {P : List Token → Expr → Prop} (hP : OfOperands P) (steps : Nat) :
    (∀ level ts e rest, readLevel steps level ts = .ok (e, rest) → P ts e) ∧
      ∀ ts e rest, readPrimary steps ts = .ok (e, rest) → P ts e := by
  induction steps with
  | zero =>
    refine ⟨fun level ts e rest h => ?_, fun ts e rest h => ?_⟩
    · rw [readLevel] at h
      cases h
    · rw [readPrimary] at h
      cases h
  | succ steps ih =>
    obtain ⟨hlevel, hprimary⟩ := ih
    exact ⟨fun level ts e rest h => hP.of_readLevel hlevel hprimary h,
      fun ts e rest h => hP.of_readPrimary hlevel h⟩

/-! ## Names that are bound -/

/-- What is said of expressions that are just a name: the name is one of the tokens, and none of the
three names that are values. -/
def NameAmong (ts : List Token) (e : Expr) : Prop :=
  ∀ s, e = .name s → .name s ∈ ts ∧ s ∉ ["True", "False", "None"]

/-- What a name stands for has no other name than that. -/
theorem nameAmong_nameExpr {s : String} {ts : List Token} (hs : .name s ∈ ts) :
    NameAmong ts (nameExpr s) := by
  intro t ht
  by_cases h : s ∈ ["True", "False", "None"]
  · simp only [List.mem_cons, List.not_mem_nil, or_false] at h
    rcases h with rfl | rfl | rfl <;> cases ht
  · rw [nameExpr_eq h] at ht
    cases ht
    exact ⟨hs, h⟩

/-- An operand that is one token has no other name than the token's. -/
theorem nameAmong_of_operand {t : Token} {rest : List Token} {e : Expr} (h : t.operand? = some e) :
    NameAmong (t :: rest) e := by
  unfold Token.operand? at h
  split at h <;> cases h
  case h_4 => exact nameAmong_nameExpr List.mem_cons_self
  all_goals exact fun s hs => (by cases hs)

/-- A name is read from its token, in parentheses or not. -/
theorem ofOperands_nameAmong : OfOperands NameAmong where
  mono h hsub s hs := ⟨hsub (h s hs).1, (h s hs).2⟩
  compound h s hs := by
    subst hs
    exact h.elim
  operand h := nameAmong_of_operand h
  negated {ts e} _ s hs := by
    unfold negated at hs
    split at hs <;> cases hs

/-- A name that is read as an expression is one of the tokens. -/
theorem nameAmong_of_expression {ts rest : List Token} {e : Expr} (h : expression ts = .ok (e, rest)) :
    NameAmong ts e := (ofOperands_nameAmong.of_read _).1 _ _ _ _ h

/-- The name that a statement binds or removes by assigning to it or deleting it. -/
def Statement.boundName? : Statement → Option String
  | .assign (.name s) _ => some s
  | .delete (.name s) => some s
  | _ => none

/-- A target that is a name was read as that name. -/
theorem eq_name_of_targetOf {e : Expr} {s : String} (h : targetOf e = .ok (.name s)) : e = .name s := by
  unfold targetOf at h
  split at h <;> cases h
  rfl

/-- A name that a statement binds or removes is one of its tokens, and none that is a value. -/
theorem mem_of_boundName? {ts rest : List Token} {st : Statement} {s : String}
    (h : statement ts = .ok (st, rest)) (hs : st.boundName? = some s) :
    .name s ∈ ts ∧ s ∉ ["True", "False", "None"] := by
  unfold statement at h
  split at h
  · -- an import binds no name by assignment
    obtain ⟨⟨module, after⟩, -, h⟩ := except_bind_eq_ok.mp h
    simp only at h
    split at h
    · obtain ⟨⟨short, after⟩, -, h⟩ := except_bind_eq_ok.mp h
      cases h
      cases hs
    · cases h
      cases hs
  case h_2 more =>
    obtain ⟨⟨e, after⟩, hread, h⟩ := except_bind_eq_ok.mp h
    obtain ⟨target, ht, h⟩ := except_bind_eq_ok.mp h
    cases h
    cases target with
    | name t =>
      obtain rfl : t = s := Option.some.inj hs
      have hmem := nameAmong_of_expression hread t (eq_name_of_targetOf ht)
      exact ⟨List.mem_cons_of_mem _ hmem.1, hmem.2⟩
    | column frame label => cases hs
  case h_3 =>
    obtain ⟨⟨e, after⟩, hread, h⟩ := except_bind_eq_ok.mp h
    simp only at h
    split at h
    · obtain ⟨target, ht, h⟩ := except_bind_eq_ok.mp h
      obtain ⟨⟨value, afterValue⟩, -, h⟩ := except_bind_eq_ok.mp h
      cases h
      cases target with
      | name t =>
        obtain rfl : t = s := Option.some.inj hs
        exact nameAmong_of_expression hread t (eq_name_of_targetOf ht)
      | column frame label => cases hs
    · cases h
      cases hs

end TableScript.Script
