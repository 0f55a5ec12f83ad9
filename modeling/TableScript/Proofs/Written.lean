import TableScript.Proofs.Ending
import TableScript.Proofs.Binary

/-!
# Writing expressions

`Expr.written` writes an expression as tokens. An operand stands in a place that asks for a level of
binding; it gets parentheses exactly if its own level is looser. The places are those of the
documented order: both operands of a comparison are one level tighter than the comparison, since
comparisons do not chain, and of the other operators between operands only the right one is, since
they group from the left.

What is written is read back (`reads_written`). The statement that carries the induction is `Reads`:
the tokens are read on their level whatever follows them, and what follows may go on with a chain of
operands or of suffixes (`Resumes`).
-/

namespace TableScript.Script

/-! ## Levels -/

/-- The level of an operator between operands. -/
def BinaryOp.level : BinaryOp → Level
  | or => .or
  | and => .and
  | eq | ne | lt | le | gt | ge => .comparison
  | bitOr => .pipe
  | bitAnd => .amp
  | add | sub => .sum
  | mul | div | mod => .product

/-- The token of an operator between operands. -/
def BinaryOp.token : BinaryOp → Token
  | add => .plus
  | sub => .minus
  | mul => .star
  | div => .slash
  | mod => .percent
  | eq => .eq
  | ne => .ne
  | lt => .lt
  | le => .le
  | gt => .gt
  | ge => .ge
  | bitAnd => .amp
  | bitOr => .pipe
  | and => .name "and"
  | or => .name "or"

/-- No operator is the assignment sign. -/
theorem BinaryOp.token_ne_assign (op : BinaryOp) : op.token ≠ .assign := by cases op <;> decide

/-- The level that the place on the left of an operator asks for. -/
def BinaryOp.leftLevel (op : BinaryOp) : Level :=
  if op.level = .comparison then .pipe else op.level

/-- A token is the operator on its own level only. -/
theorem operator?_token (op : BinaryOp) (level : Level) :
    level.operator? op.token = if level = op.level then some op else none := by
  cases op <;> cases level <;> rfl

/-- The level of an operator before an operand. -/
def UnaryOp.level : UnaryOp → Level
  | neg | invert => .sign
  | not => .not

/-- The token of an operator before an operand. -/
def UnaryOp.token : UnaryOp → Token
  | neg => .minus
  | invert => .tilde
  | not => .name "not"

/-- The level of an expression without parentheses. The minus sign of a negative number counts as an
operator. -/
def Expr.level : Expr → Level
  | .literal (.int n) => if n < 0 then .sign else .suffix
  | .literal (.float x) => if Decimal.isNegative x then .sign else .suffix
  | .unary op _ => op.level
  | .binary op _ _ => op.level
  | _ => .suffix

/-! ## Tokens -/

/-- Parentheses around tokens of a level, if the place asks for a tighter one. -/
def enclosed (place level : Level) (ts : List Token) : List Token :=
  if place.rank ≤ level.rank then ts else .lParen :: (ts ++ [.rParen])

/-- Pieces with commas between them. -/
def separated : List (List Token) → List Token
  | [] => []
  | [piece] => piece
  | piece :: more => piece ++ .comma :: separated more

/-- The tokens of a value. Lists and dictionaries are expressions of their own. -/
def literalTokens : Value → List Token
  | .null => [.name "None"]
  | .bool b => [.name (if b then "True" else "False")]
  | .int n => if n < 0 then [.minus, .int (-n)] else [.int n]
  | .float x => if Decimal.isNegative x then [.minus, .float (-x)] else [.float x]
  | .str s => [.str s]
  | .list _ | .dict _ => []

mutual

/-- The tokens of an expression, with parentheses only where its operands need them. -/
def Expr.written : Expr → List Token
  | .literal v => literalTokens v
  | .name s => [.name s]
  | .list items => .lBracket :: (separated (writtenItems items) ++ [.rBracket])
  | .dict entries => .lBrace :: (separated (writtenEntries entries) ++ [.rBrace])
  | .unary op operand => op.token :: enclosed op.level operand.level operand.written
  | .binary op left right =>
    enclosed op.leftLevel left.level left.written ++
      op.token :: enclosed op.level.next right.level right.written
  | .index target position =>
    enclosed .suffix target.level target.written ++ .lBracket :: (position.written ++ [.rBracket])
  | .member target name => enclosed .suffix target.level target.written ++ [.dot, .name name]
  | .call function arguments keywords =>
    enclosed .suffix function.level function.written ++
      .lParen :: (separated (writtenItems arguments ++ writtenKeywords keywords) ++ [.rParen])

/-- The tokens of each of some expressions. -/
def writtenItems : List Expr → List (List Token)
  | [] => []
  | e :: rest => e.written :: writtenItems rest

/-- The tokens of each entry of a dictionary. -/
def writtenEntries : List (Expr × Expr) → List (List Token)
  | [] => []
  | (key, value) :: rest => (key.written ++ .colon :: value.written) :: writtenEntries rest

/-- The tokens of each argument given by name. -/
def writtenKeywords : List (String × Expr) → List (List Token)
  | [] => []
  | (s, value) :: rest => (.name s :: .assign :: value.written) :: writtenKeywords rest

end

/-- The expression is a number. -/
def Expr.isNumber : Expr → Bool
  | .literal (.int _) | .literal (.float _) => true
  | _ => false

/-- Words that are no names of an expression. -/
def reservedWords : List String := ["True", "False", "None", "and", "or", "not", "import", "del"]

/-- The expressions that can be written: a minus sign before a number would become part of the
number, and the least whole number is not the negative of any. -/
inductive Writable : Expr → Prop where
  | null : Writable (.literal .null)
  | bool (b : Bool) : Writable (.literal (.bool b))
  | int {n : Int64} (h : n ≠ Int64.minValue) : Writable (.literal (.int n))
  | float (x : Float) : Writable (.literal (.float x))
  | str (s : String) : Writable (.literal (.str s))
  | name {s : String} (h : s ∉ reservedWords) : Writable (.name s)
  | list {items : List Expr} (h : ∀ e ∈ items, Writable e) : Writable (.list items)
  | dict {entries : List (Expr × Expr)} (hkeys : ∀ entry ∈ entries, Writable entry.1)
      (hvalues : ∀ entry ∈ entries, Writable entry.2) : Writable (.dict entries)
  | unary {op : UnaryOp} {operand : Expr} (h : Writable operand)
      (hnumber : op = .neg → operand.isNumber = false) : Writable (.unary op operand)
  | binary (op : BinaryOp) {left right : Expr} (hleft : Writable left) (hright : Writable right) :
      Writable (.binary op left right)
  | index {target position : Expr} (htarget : Writable target) (hposition : Writable position) :
      Writable (.index target position)
  | member {target : Expr} (name : String) (h : Writable target) : Writable (.member target name)
  | call {function : Expr} {arguments : List Expr} {keywords : List (String × Expr)}
      (hfunction : Writable function) (harguments : ∀ e ∈ arguments, Writable e)
      (hkeywords : ∀ keyword ∈ keywords, Writable keyword.2) :
      Writable (.call function arguments keywords)

/-! ## What may follow -/

/-- The tokens do not go on with an expression of the level: they begin neither with an operator of
the level or a tighter one nor with a suffix. -/
def Ends (level : Level) (rest : List Token) : Prop :=
  ∀ t ∈ rest.head?, t ∉ [Token.lBracket, .dot, .lParen] ∧
    ∀ tighter : Level, level.rank ≤ tighter.rank → tighter.operator? t = none

/-- What closes an expression ends every level. -/
theorem Ends.of_closes (level : Level) {rest : List Token} (h : Closes rest) : Ends level rest := by
  intro t ht
  cases rest with
  | nil => cases ht
  | cons u rest =>
    obtain rfl : u = t := Option.some.inj ht
    simp only [closes_cons, List.mem_cons, List.not_mem_nil, or_false] at h
    rcases h with rfl | rfl | rfl | rfl | rfl | rfl <;>
      exact ⟨by decide, fun tighter _ => by cases tighter <;> rfl⟩

/-- What ends a level ends the tighter ones. -/
theorem Ends.mono {loose tight : Level} {rest : List Token} (h : Ends loose rest)
    (hle : loose.rank ≤ tight.rank) : Ends tight rest :=
  fun t ht => ⟨(h t ht).1, fun tighter htighter => (h t ht).2 tighter (hle.trans htighter)⟩

/-- So it ends the next one. -/
theorem Ends.next {level : Level} {rest : List Token} (h : Ends level rest) :
    Ends level.next rest :=
  h.mono level.rank_le_next

/-- An operator between operands ends what binds tighter. -/
theorem Ends.operator {level : Level} (op : BinaryOp) (h : op.level.rank < level.rank)
    (rest : List Token) : Ends level (op.token :: rest) := by
  intro t ht
  obtain rfl : op.token = t := Option.some.inj ht
  refine ⟨by cases op <;> decide, fun tighter htighter => ?_⟩
  rw [operator?_token, if_neg]
  rintro rfl
  omega

/-- No operator of a level stands where it ends. -/
theorem Ends.splitOperator? {level : Level} {rest : List Token} (h : Ends level rest) :
    level.splitOperator? rest = none := by
  cases rest with
  | nil => rfl
  | cons t rest =>
    change (level.operator? t).map _ = none
    rw [(h t rfl).2 level (Nat.le_refl _)]
    rfl

/-- A chain of operands ends there. -/
theorem Ends.readOperands {level : Level} {rest : List Token} (h : Ends level rest) (steps : Nat)
    (left : Expr) : readOperands (steps + 1) level left rest = .ok (left, rest) := by
  rw [Script.readOperands, h.splitOperator?]

/-- So do the suffixes of an operand. -/
theorem Ends.readSuffixes {level : Level} {rest : List Token} (h : Ends level rest) (steps : Nat)
    (e : Expr) : readSuffixes (steps + 1) e rest = .ok (e, rest) := by
  have hhead : ∀ t more, rest = t :: more → t ∉ [Token.lBracket, .dot, .lParen] := by
    rintro t more rfl
    exact (h t rfl).1
  rw [Script.readSuffixes]
  all_goals
    intro more heq
    exact hhead _ _ heq (by simp)

/-- An expression has been read on a level, and from `steps` steps on what follows gives the result:
a chain goes on with its operands and an operand with its suffixes. -/
def Resumes (steps : Nat) (level : Level) (e : Expr) (rest : List Token)
    (result : Expr × List Token) : Prop :=
  match level with
  | .suffix => ∀ n, steps ≤ n → readSuffixes n e rest = .ok result
  | .not | .comparison | .sign => Ends level rest ∧ result = (e, rest)
  | level => Ends level.next rest ∧ ∀ n, steps ≤ n → readOperands n level e rest = .ok result

/-- On the levels of chains an expression resumes with its operands. -/
theorem resumes_chain {level : Level} (h : level ∈ [Level.or, .and, .pipe, .amp, .sum, .product])
    {steps : Nat} {e : Expr} {rest : List Token} {result : Expr × List Token} :
    Resumes steps level e rest result ↔
      Ends level.next rest ∧ ∀ n, steps ≤ n → readOperands n level e rest = .ok result := by
  cases level <;> first | exact Iff.rfl | simp at h

/-- Nothing has to go on. -/
theorem Ends.resumes {level : Level} {rest : List Token} (h : Ends level rest) (e : Expr) :
    Resumes 1 level e rest (e, rest) := by
  have hoperands : ∀ n, 1 ≤ n → Script.readOperands n level e rest = .ok (e, rest) := by
    intro n hn
    obtain ⟨k, rfl⟩ : ∃ k, n = k + 1 := ⟨n - 1, by omega⟩
    exact h.readOperands k e
  cases level with
  | suffix =>
    intro n hn
    obtain ⟨k, rfl⟩ : ∃ k, n = k + 1 := ⟨n - 1, by omega⟩
    exact h.readSuffixes k e
  | not | comparison | sign => exact ⟨h, rfl⟩
  | or | and | pipe | amp | sum | product => exact ⟨h.next, hoperands⟩

/-! ## Reading on a level -/

/-- The tokens begin an expression of the level, and no statement of another kind. -/
def BeginsAt (level : Level) (ts : List Token) : Prop :=
  ∃ t more, ts = t :: more ∧ more.head? ≠ some .assign ∧
    t ∉ [Token.assign, .rParen, .rBracket, .rBrace, .name "import", .name "del"] ∧
    (Level.not.rank < level.rank → t ≠ .name "not") ∧
    (Level.sign.rank < level.rank → t ∉ [Token.minus, .tilde, .plus])

/-- What begins on a level begins on the looser ones. -/
theorem BeginsAt.mono {loose tight : Level} {ts : List Token} (h : BeginsAt tight ts)
    (hle : loose.rank ≤ tight.rank) : BeginsAt loose ts := by
  obtain ⟨t, more, rfl, hassign, hfirst, hnot, hsign⟩ := h
  exact ⟨t, more, rfl, hassign, hfirst, fun h => hnot (by omega), fun h => hsign (by omega)⟩

/-- More tokens change nothing about the beginning, if the first of them is no assignment sign. -/
theorem BeginsAt.append {level : Level} {ts more : List Token} (h : BeginsAt level ts)
    (hmore : more.head? ≠ some .assign) : BeginsAt level (ts ++ more) := by
  obtain ⟨t, rest, rfl, hassign, hfirst⟩ := h
  refine ⟨t, rest ++ more, rfl, ?_, hfirst⟩
  cases rest with
  | nil => exact hmore
  | cons u us => exact hassign

/-- What begins on a level opens an expression. -/
theorem BeginsAt.opens {level : Level} {ts : List Token} (h : BeginsAt level ts) : Opens ts := by
  obtain ⟨t, more, rfl, -, hfirst, -⟩ := h
  refine ⟨t, more, rfl, fun hmem => hfirst ?_⟩
  simp only [List.mem_cons, List.not_mem_nil, or_false] at hmem ⊢
  tauto

/-- No assignment sign stands first, whatever follows. -/
theorem BeginsAt.head?_append_ne {level : Level} {ts : List Token} (h : BeginsAt level ts)
    (more : List Token) : (ts ++ more).head? ≠ some .assign := by
  obtain ⟨t, rest, rfl, -, hfirst, -⟩ := h
  intro heq
  exact hfirst (by simp [Option.some.inj heq])

/-- The tokens are read as the expression on the level, whatever follows them. -/
structure Reads (level : Level) (ts : List Token) (e : Expr) : Prop where
  begins : BeginsAt level ts
  reads : ∀ (steps : ℕ) {rest result}, Resumes (steps + 1) level e rest result →
    ∀ n, steps + 12 * ts.length ≤ n + level.rank → readLevel n level (ts ++ rest) = .ok result

namespace Reads

variable {level : Level} {ts : List Token} {e : Expr}

/-- An expression has a token. -/
theorem length_pos (h : Reads level ts e) : 1 ≤ ts.length := by
  obtain ⟨t, more, rfl, -⟩ := h.begins
  simp

/-- Tokens of an expression are read as it when its level ends behind them. -/
theorem read_ends (h : Reads level ts e) {rest : List Token} (hrest : Ends level rest) {n : Nat}
    (hn : 12 * ts.length ≤ n + level.rank) : readLevel n level (ts ++ rest) = .ok (e, rest) :=
  h.reads _ (hrest.resumes e) n (by omega)

/-- Tokens that are read on a level are read on the next looser one. -/
theorem loosen (hlevel : level ≠ .suffix) (h : Reads level.next ts e) : Reads level ts e := by
  have hrank := Level.rank_next hlevel
  refine ⟨h.begins.mono level.rank_le_next, ?_⟩
  intro steps rest result hresumes n hn
  have hlength := h.length_pos
  have hbound := level.rank_le
  obtain ⟨k, rfl⟩ : ∃ k, n = k + 1 := ⟨n - 1, by omega⟩
  obtain ⟨t, more, hts, -, -, hnot, hsign⟩ := h.begins
  -- With one step less, the tokens are read on the tighter level.
  have hread : Ends level.next rest → readLevel k level.next (ts ++ rest) = .ok (e, rest) :=
    fun hends => h.read_ends hends (by omega)
  cases level with
  | suffix => exact absurd rfl hlevel
  | not =>
    obtain ⟨hends, rfl⟩ := hresumes
    rw [readLevel]
    · exact hread hends.next
    · intro more' heq
      rw [hts] at heq
      exact hnot (by decide) (List.cons.inj heq).1
  | sign =>
    obtain ⟨hends, rfl⟩ := hresumes
    have hhead : ∀ u more', ts ++ rest = u :: more' → u ∉ [Token.minus, .tilde, .plus] := by
      intro u more' heq
      rw [hts] at heq
      exact (List.cons.inj heq).1 ▸ hsign (by decide)
    rw [readLevel]
    · exact hread hends.next
    all_goals
      intro more' heq
      exact hhead _ _ heq (by simp)
  | comparison =>
    obtain ⟨hends, rfl⟩ := hresumes
    have hpipe : readLevel k .pipe (ts ++ rest) = .ok (e, rest) := hread hends.next
    rw [readLevel, hpipe]
    simp only [hends.splitOperator?, bind, Except.bind, pure, Except.pure]
  | or | and | pipe | amp | sum | product =>
    obtain ⟨hends, hoperands⟩ := (resumes_chain (by simp)).mp hresumes
    rw [readLevel_chain (by simp), hread hends]
    exact hoperands k (by omega)

/-- Tokens that are read on a level are read on every looser one. -/
theorem mono {place : Level} (h : Reads level ts e) (hle : place.rank ≤ level.rank) :
    Reads place ts e := by
  obtain ⟨d, hd⟩ : ∃ d, level.rank = place.rank + d := ⟨level.rank - place.rank, by omega⟩
  induction d generalizing place with
  | zero =>
    have heq : place = level := by cases place <;> cases level <;> first | rfl | cases hd
    exact heq ▸ h
  | succ d ih =>
    have hplace : place ≠ .suffix := by
      rintro rfl
      have hbound : level.rank ≤ Level.suffix.rank := level.rank_le
      omega
    have hrank := Level.rank_next hplace
    exact loosen hplace (ih (by omega) (by omega))

/-- Tokens of an expression are an expression wherever they stand. -/
theorem readsAs (h : Reads level ts e) : ReadsAs ts e := by
  have hor : Reads .or ts e := h.mono (Nat.zero_le _)
  exact ⟨h.begins.opens, fun steps rest hsteps hrest =>
    hor.read_ends (.of_closes _ hrest) (by omega)⟩

/-- An operand without signs and suffixes. -/
theorem primary (hbegins : BeginsAt .suffix ts)
    (h : ∀ n rest, 12 * ts.length ≤ n + 10 → readPrimary n (ts ++ rest) = .ok (e, rest)) :
    Reads .suffix ts e := by
  refine ⟨hbegins, ?_⟩
  intro steps rest result hresumes n hn
  have hlength : 1 ≤ ts.length := by
    obtain ⟨t, more, rfl, -⟩ := hbegins
    simp
  simp only [Level.rank] at hn
  obtain ⟨k, rfl⟩ : ∃ k, n = k + 1 := ⟨n - 1, by omega⟩
  rw [readLevel, h k rest (by omega)]
  exact hresumes k (by omega)

/-- A token that is an operand by itself. -/
theorem token {t : Token} (hword : t ∉ [Token.name "import", .name "del", .name "not"])
    (h : t.operand? = some e) : Reads .suffix [t] e := by
  simp only [List.mem_cons, List.not_mem_nil, or_false, not_or] at hword
  have hfirst : t ∉ [Token.assign, .rParen, .rBracket, .rBrace, .minus, .tilde, .plus] := by
    intro hmem
    simp only [List.mem_cons, List.not_mem_nil, or_false] at hmem
    rcases hmem with rfl | rfl | rfl | rfl | rfl | rfl | rfl <;> cases h
  simp only [List.mem_cons, List.not_mem_nil, or_false, not_or] at hfirst
  refine primary
    ⟨t, [], rfl, by simp, by simp [hfirst, hword], by simp [hword], by simp [hfirst]⟩ ?_
  intro n rest hn
  obtain ⟨k, rfl⟩ : ∃ k, n = k + 1 := ⟨n - 1, by simp at hn; omega⟩
  exact readPrimary_of_operand h k rest

/-- Parentheses make an operand of anything. -/
theorem parenthesized (h : Reads level ts e) : Reads .suffix (.lParen :: (ts ++ [.rParen])) e := by
  have hor : Reads .or ts e := h.mono (Nat.zero_le _)
  refine primary ⟨.lParen, _, rfl, h.begins.head?_append_ne _, by simp, by simp, by simp⟩ ?_
  intro n rest hn
  simp only [List.length_cons, List.length_append, List.length_nil] at hn
  obtain ⟨k, rfl⟩ : ∃ k, n = k + 1 := ⟨n - 1, by omega⟩
  have happend : .lParen :: (ts ++ [.rParen]) ++ rest = .lParen :: (ts ++ .rParen :: rest) := by
    simp
  have hinner : readLevel k .or (ts ++ .rParen :: rest) = .ok (e, .rParen :: rest) :=
    hor.read_ends (.of_closes _ (by simp)) (by omega)
  rw [happend, readPrimary, hinner]
  simp only [expect, if_true, bind, Except.bind, pure, Except.pure]

/-- In its place an expression stands with the parentheses it needs there. -/
theorem enclosed (h : Reads level ts e) (place : Level) :
    Reads place (enclosed place level ts) e := by
  unfold Script.enclosed
  split
  case isTrue hle => exact h.mono hle
  case isFalse => exact h.parenthesized.mono (by cases place <;> decide)

/-! ### Operators before an operand -/

/-- An operator before an operand is read if the reader of its level reads it. -/
theorem prefixed (op : UnaryOp) {result : Expr} (h : Reads op.level ts e)
    (hread : ∀ k more after, readLevel k op.level more = .ok (e, after) →
      readLevel (k + 1) op.level (op.token :: more) = .ok (result, after)) :
    Reads op.level (op.token :: ts) result := by
  have hbegins : BeginsAt op.level (op.token :: ts) := by
    refine ⟨op.token, ts, rfl, ?_, by cases op <;> decide, ?_, ?_⟩
    · have hhead := h.begins.head?_append_ne []
      rwa [List.append_nil] at hhead
    · cases op <;> decide
    · cases op <;> decide
  refine ⟨hbegins, ?_⟩
  intro steps rest final hresumes n hn
  have hends : Ends op.level rest ∧ final = (result, rest) := by cases op <;> exact hresumes
  obtain ⟨hends, rfl⟩ := hends
  have hrank := op.level.rank_le
  simp only [List.length_cons] at hn
  obtain ⟨k, rfl⟩ : ∃ k, n = k + 1 := ⟨n - 1, by omega⟩
  exact hread k _ rest (h.read_ends hends (by omega))

/-- A minus sign in front negates. -/
theorem minus (h : Reads .sign ts e) : Reads .sign (.minus :: ts) (negated e) := by
  refine prefixed .neg h fun k more after hmore => ?_
  change readLevel (k + 1) .sign (.minus :: more) = _
  change readLevel k .sign more = _ at hmore
  rw [readLevel, hmore]
  rfl

/-- A tilde in front inverts. -/
theorem tilde (h : Reads .sign ts e) : Reads .sign (.tilde :: ts) (.unary .invert e) := by
  refine prefixed .invert h fun k more after hmore => ?_
  change readLevel (k + 1) .sign (.tilde :: more) = _
  change readLevel k .sign more = _ at hmore
  rw [readLevel, hmore]
  rfl

/-- The word in front negates a truth value. -/
theorem not (h : Reads .not ts e) : Reads .not (.name "not" :: ts) (.unary .not e) := by
  refine prefixed .not h fun k more after hmore => ?_
  change readLevel (k + 1) .not (.name "not" :: more) = _
  change readLevel k .not more = _ at hmore
  rw [readLevel, hmore]
  rfl

/-! ### Operators between operands -/

/-- Between two operands of a chain, the left one of the same level. -/
theorem chained {op : BinaryOp} {ls rs : List Token} {l r : Expr} (hop : op.level ≠ .comparison)
    (hl : Reads op.level ls l) (hr : Reads op.level.next rs r) :
    Reads op.level (ls ++ op.token :: rs) (.binary op l r) := by
  have hchain : op.level ∈ [Level.or, .and, .pipe, .amp, .sum, .product] := by
    cases op <;> first | exact absurd rfl hop | decide
  have hrank : op.level.next.rank = op.level.rank + 1 := Level.rank_next (by cases op <;> decide)
  refine ⟨hl.begins.append (by simpa using op.token_ne_assign), ?_⟩
  intro steps rest result hresumes n hn
  obtain ⟨hends, hoperands⟩ := (resumes_chain hchain).mp hresumes
  simp only [List.length_append, List.length_cons] at hn
  rw [List.append_assoc, List.cons_append]
  -- The left operand is read first; the chain goes on with the operator and the right one.
  refine hl.reads (steps + 12 * rs.length + 1) ((resumes_chain hchain).mpr ⟨?_, ?_⟩) n
    (by omega)
  · exact .operator op (by omega) _
  · intro m hm
    obtain ⟨k, rfl⟩ : ∃ k, m = k + 1 := ⟨m - 1, by omega⟩
    have hsplit : op.level.splitOperator? (op.token :: (rs ++ rest)) = some (op, rs ++ rest) := by
      change (op.level.operator? op.token).map _ = _
      rw [operator?_token, if_pos rfl]
      rfl
    rw [readOperands, hsplit]
    simp only [hr.read_ends hends (n := k) (by omega), bind, Except.bind]
    exact hoperands k (by omega)

/-- Between the two operands of a comparison. -/
theorem compared {op : BinaryOp} {ls rs : List Token} {l r : Expr} (hop : op.level = .comparison)
    (hl : Reads .pipe ls l) (hr : Reads .pipe rs r) :
    Reads .comparison (ls ++ op.token :: rs) (.binary op l r) := by
  refine ⟨(hl.begins.mono (by decide)).append (by simpa using op.token_ne_assign), ?_⟩
  intro steps rest result hresumes n hn
  obtain ⟨hends, rfl⟩ := hresumes
  simp only [List.length_append, List.length_cons, Level.rank] at hn
  obtain ⟨k, rfl⟩ : ∃ k, n = k + 1 := ⟨n - 1, by omega⟩
  have hleft : readLevel k .pipe (ls ++ op.token :: (rs ++ rest)) =
      .ok (l, op.token :: (rs ++ rest)) :=
    hl.read_ends (.operator op (by rw [hop]; decide) _) (by simp only [Level.rank]; omega)
  have hright : readLevel k .pipe (rs ++ rest) = .ok (r, rest) :=
    hr.read_ends hends.next (by simp only [Level.rank]; omega)
  have hsplit :
      Level.comparison.splitOperator? (op.token :: (rs ++ rest)) = some (op, rs ++ rest) := by
    change (Level.comparison.operator? op.token).map _ = _
    rw [operator?_token, if_pos hop.symm]
    rfl
  rw [List.append_assoc, List.cons_append, readLevel, hleft]
  simp only [hsplit, hright, bind, Except.bind, pure, Except.pure]

/-! ### Suffixes -/

/-- A suffix after an operand is read if the reader of suffixes reads it. -/
theorem suffixed {t : Token} {more : List Token} {result : Expr} (h : Reads .suffix ts e)
    (ht : t ≠ .assign)
    (hread : ∀ k rest, 12 * (more.length + 1) ≤ k + 11 →
      readSuffixes (k + 1) e (t :: (more ++ rest)) = readSuffixes k result rest) :
    Reads .suffix (ts ++ t :: more) result := by
  refine ⟨h.begins.append (by simpa using ht), ?_⟩
  intro steps rest final hresumes n hn
  simp only [List.length_append, List.length_cons] at hn
  rw [List.append_assoc, List.cons_append]
  refine h.reads (steps + 12 * (more.length + 1)) ?_ n (by omega)
  intro m hm
  obtain ⟨k, rfl⟩ : ∃ k, m = k + 1 := ⟨m - 1, by omega⟩
  rw [hread k rest (by omega)]
  exact hresumes k (by omega)

/-- Brackets behind an operand index it. -/
theorem index {ps : List Token} {p : Expr} (h : Reads .suffix ts e) (hp : ReadsAs ps p) :
    Reads .suffix (ts ++ .lBracket :: (ps ++ [.rBracket])) (.index e p) := by
  refine h.suffixed (by simp) fun k rest hk => ?_
  simp only [List.length_append, List.length_cons, List.length_nil] at hk
  have hposition : readLevel k .or (ps ++ .rBracket :: rest) = .ok (p, .rBracket :: rest) :=
    hp.reads k _ (by omega) (by simp)
  rw [List.append_assoc, List.singleton_append, readSuffixes, hposition]
  simp only [expect, if_true, bind, Except.bind]

/-- A point and a name behind an operand are an attribute of it. -/
theorem member (h : Reads .suffix ts e) (name : String) :
    Reads .suffix (ts ++ [.dot, .name name]) (.member e name) := by
  refine h.suffixed (by simp) fun k rest hk => ?_
  rw [List.singleton_append, readSuffixes]
  simp only [expectName, bind, Except.bind]

/-- Empty parentheses behind an operand call it. -/
theorem emptyCall (h : Reads .suffix ts e) :
    Reads .suffix (ts ++ [.lParen, .rParen]) (.call e [] []) := by
  refine h.suffixed (by simp) fun k rest hk => ?_
  rw [List.singleton_append, readSuffixes]
  simp only [bind, Except.bind]

/-- Arguments in parentheses behind an operand call it with them. -/
theorem call {args : List Token} {positional : List Expr} {keywords : List (String × Expr)}
    (h : Reads .suffix ts e) (hopens : Opens args)
    (hargs : ReadsArguments [] args ⟨positional, keywords⟩) :
    Reads .suffix (ts ++ .lParen :: (args ++ [.rParen])) (.call e positional keywords) := by
  refine h.suffixed (by simp) fun k rest hk => ?_
  simp only [List.length_append, List.length_cons, List.length_nil] at hk
  have hread := hargs k rest (by omega)
  obtain ⟨t, more, rfl, ht⟩ := hopens
  rw [List.append_assoc, List.singleton_append, readSuffixes, hread]
  · simp only [bind, Except.bind]
  · rintro after heq
    exact ht (by simp [(List.cons.inj heq).1])

end Reads

/-! ## Lists, dictionaries and arguments -/

/-- The tokens of an item: an expression, and no argument given by name. -/
structure IsItem (ts : List Token) (e : Expr) : Prop where
  reads : ReadsAs ts e
  unnamed : ∀ s rest, ts ≠ .name s :: .assign :: rest

/-- An expression is an item. -/
theorem Reads.isItem {level : Level} {ts : List Token} {e : Expr} (h : Reads level ts e) :
    IsItem ts e := by
  refine ⟨h.readsAs, ?_⟩
  rintro s rest rfl
  obtain ⟨t, more, heq, hassign, -⟩ := h.begins
  cases heq
  exact hassign rfl

/-- The first of some pieces opens them all. -/
theorem opens_separated {piece : List Token} (h : Opens piece) (more : List (List Token)) :
    Opens (separated (piece :: more)) := by
  cases more with
  | nil => exact h
  | cons next more => exact h.append _

/-- Items are read from their tokens with commas between them. -/
theorem readsItems_separated {items : List Expr} (hne : items ≠ [])
    (h : ∀ e ∈ items, ReadsAs e.written e) : ReadsItems (separated (writtenItems items)) items := by
  induction items with
  | nil => exact absurd rfl hne
  | cons e items ih =>
    cases items with
    | nil => exact .single (h e List.mem_cons_self)
    | cons next items =>
      have hmore := ih (by simp) fun e' he' => h e' (List.mem_cons_of_mem _ he')
      have hopens := (h next (by simp)).opens
      exact .cons (h e List.mem_cons_self) (opens_separated hopens _) hmore

/-- So are entries. -/
theorem readsEntries_separated {entries : List (Expr × Expr)} (hne : entries ≠ [])
    (hkeys : ∀ entry ∈ entries, ReadsAs entry.1.written entry.1)
    (hvalues : ∀ entry ∈ entries, ReadsAs entry.2.written entry.2) :
    ReadsEntries (separated (writtenEntries entries)) entries := by
  induction entries with
  | nil => exact absurd rfl hne
  | cons entry entries ih =>
    obtain ⟨key, value⟩ := entry
    have hkey := hkeys _ List.mem_cons_self
    have hvalue := hvalues _ List.mem_cons_self
    cases entries with
    | nil => exact .single hkey hvalue
    | cons next entries =>
      have hmore := ih (by simp) (fun e he => hkeys e (List.mem_cons_of_mem _ he))
        fun e he => hvalues e (List.mem_cons_of_mem _ he)
      have hopens := (hkeys next (by simp)).opens
      exact .cons hkey hvalue (opens_separated (hopens.append _) _) hmore

/-- Arguments given by name. -/
theorem readsArguments_keywords {keywords : List (String × Expr)} (hne : keywords ≠ [])
    (h : ∀ keyword ∈ keywords, ReadsAs keyword.2.written keyword.2) (named : List (String × Expr)) :
    ReadsArguments named (separated (writtenKeywords keywords))
      ⟨[], named.reverse ++ keywords⟩ := by
  induction keywords generalizing named with
  | nil => exact absurd rfl hne
  | cons keyword keywords ih =>
    obtain ⟨s, value⟩ := keyword
    have hvalue := h _ List.mem_cons_self
    cases keywords with
    | nil => exact .lastKeyword hvalue
    | cons next keywords =>
      have hmore := ih (by simp) (fun e he => h e (List.mem_cons_of_mem _ he)) ((s, value) :: named)
      rw [List.reverse_cons, List.append_assoc, List.singleton_append] at hmore
      refine .consKeyword hvalue (opens_separated ?_ _) hmore
      exact ⟨.name next.1, _, rfl, by simp⟩

/-- Arguments given by position and then arguments given by name. -/
theorem readsArguments_separated {arguments : List Expr} {keywords : List (String × Expr)}
    (hne : arguments ≠ [] ∨ keywords ≠ []) (harguments : ∀ e ∈ arguments, IsItem e.written e)
    (hkeywords : ∀ keyword ∈ keywords, ReadsAs keyword.2.written keyword.2) :
    Opens (separated (writtenItems arguments ++ writtenKeywords keywords)) ∧
      ReadsArguments [] (separated (writtenItems arguments ++ writtenKeywords keywords))
        ⟨arguments, keywords⟩ := by
  induction arguments with
  | nil =>
    have hkeywordsNe := hne.resolve_left (by simp)
    refine ⟨?_, readsArguments_keywords hkeywordsNe hkeywords []⟩
    obtain ⟨keyword, more, rfl⟩ := List.exists_cons_of_ne_nil hkeywordsNe
    exact opens_separated ⟨.name keyword.1, _, rfl, by simp⟩ _
  | cons e arguments ih =>
    have he := harguments e List.mem_cons_self
    have hopens :=
      opens_separated he.reads.opens (writtenItems arguments ++ writtenKeywords keywords)
    refine ⟨hopens, ?_⟩
    by_cases hmore : arguments = [] ∧ keywords = []
    · obtain ⟨rfl, rfl⟩ := hmore
      exact .lastPositional he.reads he.unnamed
    · obtain ⟨hopensMore, hreads⟩ := ih (by tauto) fun e' he' =>
        harguments e' (List.mem_cons_of_mem _ he')
      -- Something follows, so the pieces are joined by a comma.
      obtain ⟨next, more, hpieces⟩ : ∃ next more,
          writtenItems arguments ++ writtenKeywords keywords = next :: more := by
        cases hpieces : writtenItems arguments ++ writtenKeywords keywords with
        | nil =>
          rw [hpieces] at hopensMore
          obtain ⟨t, rest, heq, -⟩ := hopensMore
          cases heq
        | cons next more => exact ⟨next, more, rfl⟩
      have hseparated : separated (writtenItems (e :: arguments) ++ writtenKeywords keywords) =
          e.written ++ .comma ::
            separated (writtenItems arguments ++ writtenKeywords keywords) := by
        rw [writtenItems, List.cons_append, hpieces]
        rfl
      rw [hseparated]
      refine .cons he.reads hopensMore ?_ hreads
      intro s rest heq
      obtain ⟨t, ts, hts, -⟩ := he.reads.opens
      cases ts with
      | nil =>
        rw [hts] at heq
        cases heq
      | cons u us =>
        rw [hts] at heq
        simp only [List.cons_append, List.cons.injEq] at heq
        exact he.unnamed s us (by rw [hts, heq.1, heq.2.1])

/-- Empty brackets are the empty list. -/
theorem Reads.emptyList : Reads .suffix [.lBracket, .rBracket] (.list []) := by
  refine .primary ⟨.lBracket, _, rfl, by simp, by simp, by simp, by simp⟩ ?_
  intro n rest hn
  obtain ⟨k, rfl⟩ : ∃ k, n = k + 1 := ⟨n - 1, by simp at hn; omega⟩
  rw [List.cons_append, List.singleton_append, readPrimary]

/-- Empty braces are the empty dictionary. -/
theorem Reads.emptyDict : Reads .suffix [.lBrace, .rBrace] (.dict []) := by
  refine .primary ⟨.lBrace, _, rfl, by simp, by simp, by simp, by simp⟩ ?_
  intro n rest hn
  obtain ⟨k, rfl⟩ : ∃ k, n = k + 1 := ⟨n - 1, by simp at hn; omega⟩
  rw [List.cons_append, List.singleton_append, readPrimary]

/-- Tokens that open with no closing bracket and no assignment sign, between brackets. -/
theorem BeginsAt.bracketed {level : Level} {ts : List Token} (h : BeginsAt level ts)
    {left right : Token}
    (hleft : left ∉ [Token.assign, .rParen, .rBracket, .rBrace, .name "import", .name "del",
      .name "not", .minus, .tilde, .plus]) : BeginsAt .suffix (left :: (ts ++ [right])) := by
  simp only [List.mem_cons, List.not_mem_nil, or_false, not_or] at hleft
  exact ⟨left, _, rfl, h.head?_append_ne _, by simp [hleft], by simp [hleft], by simp [hleft]⟩

/-- The first of some pieces begins them all. -/
theorem begins_separated {level : Level} {piece : List Token} (h : BeginsAt level piece)
    (more : List (List Token)) : BeginsAt level (separated (piece :: more)) := by
  cases more with
  | nil => exact h
  | cons next more => exact h.append (by simp)

/-! ## Reading what is written -/

/-- The expression is read from its tokens, on its level. -/
def ReadsBack (e : Expr) : Prop := Reads e.level e.written e

/-- A whole number is read back, a negative one with its sign. -/
theorem readsBack_int (n : Int64) : ReadsBack (.literal (.int n)) := by
  unfold ReadsBack Expr.level Expr.written literalTokens
  by_cases hn : n < 0
  · have hminus : Reads .sign [.minus, .int (-n)] (negated (.literal (.int (-n)))) :=
      .minus (.mono (.token (by simp) rfl) (by decide))
    rw [negated, Int64.neg_neg] at hminus
    simpa only [if_pos hn] using hminus
  · have htoken : Reads .suffix [.int n] (.literal (.int n)) := .token (by simp) rfl
    simpa only [if_neg hn] using htoken

/-- A float is read back, a negative one with its sign. -/
theorem readsBack_float (x : Float) : ReadsBack (.literal (.float x)) := by
  unfold ReadsBack Expr.level Expr.written literalTokens
  by_cases hx : Decimal.isNegative x = true
  · have hminus : Reads .sign [.minus, .float (-x)] (negated (.literal (.float (-x)))) :=
      .minus (.mono (.token (by simp) rfl) (by decide))
    rw [negated, Decimal.neg_neg_eq] at hminus
    simpa only [if_pos hx] using hminus
  · have htoken : Reads .suffix [.float x] (.literal (.float x)) := .token (by simp) rfl
    simpa only [if_neg hx] using htoken

/-- A name is read back, if it is none of the words. -/
theorem readsBack_name {s : String} (h : s ∉ reservedWords) : ReadsBack (.name s) := by
  simp only [reservedWords, List.mem_cons, List.not_mem_nil, or_false, not_or] at h
  refine .token (by simp [h]) ?_
  rw [Token.operand?, nameExpr_eq (by simp [h])]

/-- A list is read if its items are. -/
theorem readsBack_list {items : List Expr} (h : ∀ e ∈ items, ReadsBack e) :
    ReadsBack (.list items) := by
  cases items with
  | nil => exact .emptyList
  | cons e items =>
    have hitems : ReadsItems (separated (writtenItems (e :: items))) (e :: items) :=
      readsItems_separated (by simp) fun e' he' => (h e' he').readsAs
    have hbegins : BeginsAt e.level (separated (writtenItems (e :: items))) :=
      begins_separated (h e List.mem_cons_self).begins _
    change Reads .suffix (.lBracket :: (separated (writtenItems (e :: items)) ++ [.rBracket])) _
    refine .primary (hbegins.bracketed (by simp)) ?_
    intro n rest hn
    simp only [List.length_cons, List.length_append, List.length_nil] at hn
    obtain ⟨k, rfl⟩ : ∃ k, n = k + 1 := ⟨n - 1, by omega⟩
    exact hitems.readPrimary hbegins.opens (by omega) rest

/-- A dictionary is read if its keys and its values are. -/
theorem readsBack_dict {entries : List (Expr × Expr)} (hkeys : ∀ entry ∈ entries, ReadsBack entry.1)
    (hvalues : ∀ entry ∈ entries, ReadsBack entry.2) : ReadsBack (.dict entries) := by
  cases entries with
  | nil => exact .emptyDict
  | cons entry entries =>
    have hentries :
        ReadsEntries (separated (writtenEntries (entry :: entries))) (entry :: entries) :=
      readsEntries_separated (by simp) (fun e he => (hkeys e he).readsAs)
        fun e he => (hvalues e he).readsAs
    have hbegins : BeginsAt entry.1.level (separated (writtenEntries (entry :: entries))) :=
      begins_separated ((hkeys entry List.mem_cons_self).begins.append (by simp)) _
    change Reads .suffix (.lBrace :: (separated (writtenEntries (entry :: entries)) ++ [.rBrace])) _
    refine .primary (hbegins.bracketed (by simp)) ?_
    intro n rest hn
    simp only [List.length_cons, List.length_append, List.length_nil] at hn
    obtain ⟨k, rfl⟩ : ∃ k, n = k + 1 := ⟨n - 1, by omega⟩
    exact hentries.readPrimary hbegins.opens (by omega) rest

/-- An operator before an operand is read back if the operand is. -/
theorem readsBack_unary {op : UnaryOp} {operand : Expr} (h : ReadsBack operand)
    (hnumber : op = .neg → operand.isNumber = false) : ReadsBack (.unary op operand) := by
  have hplace := h.enclosed op.level
  cases op with
  | neg =>
    have hnegated : negated operand = .unary .neg operand := by
      have := hnumber rfl
      unfold negated
      split <;> first | rfl | simp [Expr.isNumber] at this
    have hminus := hplace.minus
    rwa [hnegated] at hminus
  | invert => exact hplace.tilde
  | not => exact hplace.not

/-- An operator between operands is read back if both are. -/
theorem readsBack_binary (op : BinaryOp) {left right : Expr} (hleft : ReadsBack left)
    (hright : ReadsBack right) : ReadsBack (.binary op left right) := by
  have hl := hleft.enclosed op.leftLevel
  have hr := hright.enclosed op.level.next
  unfold ReadsBack Expr.written
  by_cases hop : op.level = .comparison
  · have hlevel : (Expr.binary op left right).level = .comparison := hop
    have hpipe : op.leftLevel = .pipe := if_pos hop
    have hnext : op.level.next = .pipe := by rw [hop]; rfl
    rw [hpipe] at hl ⊢
    rw [hnext] at hr ⊢
    rw [hlevel]
    exact .compared hop hl hr
  · have hown : op.leftLevel = op.level := if_neg hop
    rw [hown] at hl ⊢
    exact .chained hop hl hr

/-- A call is read back if what is called and all arguments are. -/
theorem readsBack_call {function : Expr} {arguments : List Expr} {keywords : List (String × Expr)}
    (hfunction : ReadsBack function) (harguments : ∀ e ∈ arguments, ReadsBack e)
    (hkeywords : ∀ keyword ∈ keywords, ReadsBack keyword.2) :
    ReadsBack (.call function arguments keywords) := by
  have hplace := hfunction.enclosed .suffix
  unfold ReadsBack Expr.written
  by_cases hempty : arguments = [] ∧ keywords = []
  · obtain ⟨rfl, rfl⟩ := hempty
    exact hplace.emptyCall
  · have hne : arguments ≠ [] ∨ keywords ≠ [] := by tauto
    obtain ⟨hopens, hreads⟩ := readsArguments_separated hne (fun e he => (harguments e he).isItem)
      fun k hk => (hkeywords k hk).readsAs
    exact hplace.call hopens hreads

/-- What can be written is read back. -/
theorem reads_written {e : Expr} (h : Writable e) : ReadsBack e := by
  induction h with
  | null => exact .token (by simp) rfl
  | bool b =>
    unfold ReadsBack Expr.written literalTokens
    cases b <;> exact .token (by simp) rfl
  | int _ => exact readsBack_int _
  | float x => exact readsBack_float x
  | str s => exact .token (by simp) rfl
  | name h => exact readsBack_name h
  | list _ ih => exact readsBack_list ih
  | dict _ _ ihKeys ihValues => exact readsBack_dict ihKeys ihValues
  | unary _ hnumber ih => exact readsBack_unary ih hnumber
  | binary op _ _ ihLeft ihRight => exact readsBack_binary op ihLeft ihRight
  | index _ _ ihTarget ihPosition => exact (ihTarget.enclosed .suffix).index ihPosition.readsAs
  | member name _ ih => exact (ih.enclosed .suffix).member name
  | call _ _ _ ihFunction ihArguments ihKeywords =>
    exact readsBack_call ihFunction ihArguments ihKeywords

/-- A statement of what can be written is the expression. -/
theorem statement_of_written {e : Expr} (h : Writable e) :
    statement e.written = .ok (.expr e, []) := by
  have hread := reads_written h
  refine statement_expression ?_ hread.readsAs.expression_eq
  obtain ⟨t, more, heq, -, hfirst, -⟩ := hread.begins
  rw [heq]
  intro u hu
  obtain rfl : t = u := Option.some.inj hu
  exact ⟨fun h => hfirst (by simp [h]), fun h => hfirst (by simp [h])⟩

/-- Behind a name and an assignment sign it is assigned. -/
theorem statement_of_assigned {s : String} {e : Expr} (hs : s ∉ reservedWords) (h : Writable e) :
    statement (.name s :: .assign :: e.written) = .ok (.assign (.name s) e, []) := by
  refine statement_assign (fun hmem => hs ?_) (reads_written h).readsAs.expression_eq
  simp only [reservedWords, List.mem_cons, List.not_mem_nil, or_false] at hmem ⊢
  tauto

/-- Every expression that can be written is read as itself from its tokens, which have parentheses
only where the order of the operators asks for them, and nothing is left over; behind a name and an
assignment sign it is assigned to the name. Reading comes to an end by itself on all tokens, be they a
statement or not: it is not cut off, and with more steps than it asks for the answer is the same. So
reading a line comes to an end too. -/
theorem statement_written :
    (∀ e, Writable e → statement e.written = .ok (.expr e, [])) ∧
      (∀ s e, s ∉ reservedWords → Writable e →
        statement (.name s :: .assign :: e.written) = .ok (.assign (.name s) e, [])) ∧
      (∀ ts, statement ts ≠ .error .cutOff ∧
        ∀ steps, 12 * (ts.length + 1) ≤ steps →
          readLevel steps .or ts ≠ .error .cutOff ∧ readLevel steps .or ts = expression ts) ∧
      ∀ line, lineStatement? line ≠ .error .cutOff := by
  refine ⟨fun _ h => statement_of_written h, fun _ _ hs h => statement_of_assigned hs h,
    fun ts => ⟨statement_ended ts, fun steps hsteps => ?_⟩, lineStatement?_ended⟩
  have hsame := readLevel_eq_expression ts hsteps
  exact ⟨hsame ▸ expression_ended ts, hsame⟩

/-- A comparison whose right side is a difference that groups to the right, and a call: the
parentheses stand around the inner difference only. Signs without an operand are no statement, and
reading them ends too. -/
theorem statement_written_nested :
    let e : Expr := .unary .not (.binary .lt
      (.binary .sub (.name "a") (.binary .sub (.literal (.int 2)) (.literal (.int (-3)))))
      (.call (.member (.index (.name "xs") (.literal (.str "k"))) "f") [.literal (.bool true)]
        [("n", .list [.unary .neg (.name "b")])]))
    let ts : List Token := [.name "not", .name "a", .minus, .lParen, .int 2, .minus, .minus, .int 3,
      .rParen, .lt, .name "xs", .lBracket, .str "k", .rBracket, .dot, .name "f", .lParen,
      .name "True", .comma, .name "n", .assign, .lBracket, .minus, .name "b", .rBracket, .rParen]
    e.written = ts ∧ statement ts = .ok (.expr e, []) ∧
      statement (.name "c" :: .assign :: ts) = .ok (.assign (.name "c") e, []) ∧
      (readLevel 400 .or ts ≠ .error .cutOff ∧ readLevel 400 .or ts = expression ts) ∧
      statement [.plus, .minus] = .error (.unexpected none) ∧
      statement [.plus, .minus] ≠ .error .cutOff ∧ lineStatement? "+ -".toList ≠ .error .cutOff := by
  intro e ts
  have hts : e.written = ts := by decide +kernel
  have he : Writable e := by
    have ha : Writable (.binary .sub (.name "a")
        (.binary .sub (.literal (.int 2)) (.literal (.int (-3))))) :=
      .binary _ (.name (by decide)) (.binary _ (.int (by decide)) (.int (by decide)))
    have hxs : Writable (.index (.name "xs") (.literal (.str "k"))) :=
      .index (.name (by decide)) (.str _)
    have hb : Writable (.list [.unary .neg (.name "b")]) :=
      .list (by simpa using .unary (.name (by decide)) fun _ => rfl)
    exact .unary (.binary _ ha
      (.call (.member _ hxs) (by simpa using .bool true) (by simpa using hb)))
      (by simp)
  obtain ⟨hexpr, hassign, hends, hlines⟩ := statement_written
  have hsigns : statement [.plus, .minus] = .error (.unexpected none) := by rfl
  exact ⟨hts, hts ▸ hexpr e he, hts ▸ hassign "c" e (by decide) he, (hends ts).2 400 (by decide),
    hsigns, (hends _).1, hlines _⟩

end TableScript.Script
