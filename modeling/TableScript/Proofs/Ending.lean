import TableScript.Proofs.Lexing
import TableScript.Proofs.Parsing

/-!
# Reading comes to an end

The readers count their steps, and one that has none left is cut off. `expression` gives them twelve for
each token and for the end, and that is always enough, for tokens that are an expression and for those
that are none: no reading is cut off (`expression_ended`), and with more steps the answer is the same
(`readLevel_eq_expression`). The reason is that every reader of an operand takes at least one token
(`Consumes`), and that between two tokens there are no more calls than levels, with two for the operand
and its list (`Settled`). A reader that called itself on the same tokens would be cut off whatever its
steps, and the induction would stop at it.

So no statement is cut off, and no line (`statement_ended`, `lineStatement?_ended`).
-/

namespace TableScript.Script

/-! ## Readings that come to an end -/

/-- A reading has come to an end by itself: it has an answer, or the tokens have none. -/
def Ended {α : Type} (x : Reading α) : Prop := x ≠ .error .cutOff

/-- Two readings are the same one, which has come to an end by itself. -/
structure SameEnd {α : Type} (x y : Reading α) : Prop where
  eq : x = y
  ended : Ended x

section Ends

variable {α β : Type}

/-- An answer is an end. -/
theorem ended_ok (a : α) : Ended (.ok a : Reading α) := by simp [Ended]

/-- So is a fault of the tokens. -/
theorem ended_error {e : SyntaxError} (h : e ≠ .cutOff) : Ended (.error e : Reading α) :=
  fun heq => h (Except.error.inj heq)

/-- Two readings in sequence come to an end if the first one does, and the second one on what the first
gives. -/
theorem Ended.bind {x : Reading α} {f : α → Reading β} (h : Ended x)
    (hf : ∀ a, x = .ok a → Ended (f a)) : Ended (x >>= f) := by
  cases x with
  | error e => exact ended_error fun he => h (congrArg Except.error he)
  | ok a => exact hf a rfl

/-- What comes to an end comes to the same end as itself. -/
theorem Ended.same {x : Reading α} (h : Ended x) : SameEnd x x := ⟨rfl, h⟩

/-- An answer is the same end as itself. -/
theorem sameEnd_ok (a : α) : SameEnd (.ok a : Reading α) (.ok a) := (ended_ok a).same

/-- So is a fault of the tokens. -/
theorem sameEnd_error {e : SyntaxError} (h : e ≠ .cutOff) : SameEnd (.error e : Reading α) (.error e) :=
  (ended_error h).same

/-- Two readings in sequence come to the same end as two others if the first ones do, and the second ones
on what the first gives. -/
theorem SameEnd.bind {x y : Reading α} {f g : α → Reading β} (h : SameEnd x y)
    (hf : ∀ a, x = .ok a → SameEnd (f a) (g a)) : SameEnd (x >>= f) (y >>= g) := by
  obtain ⟨rfl, hx⟩ := h
  refine ⟨?_, hx.bind fun a ha => (hf a ha).ended⟩
  -- the second readings need to agree only where the first one has an answer
  cases x with
  | error e => rfl
  | ok a => exact (hf a rfl).eq

end Ends

/-- A token that is not the wanted one is a fault. -/
theorem expect_ended (wanted : Token) (ts : List Token) : Ended (expect wanted ts) := by
  unfold expect
  split
  · split
    · exact ended_ok _
    · exact ended_error (by simp)
  · exact ended_error (by simp)

/-- A token that is no name is a fault. -/
theorem expectName_ended (ts : List Token) : Ended (expectName ts) := by
  unfold expectName
  split
  · exact ended_ok _
  · exact ended_error (by simp)
  · exact ended_error (by simp)

/-- After an item stands a comma, or the end, or a fault. -/
theorem afterItem_ended (close : Token) (ts : List Token) : Ended (afterItem close ts) := by
  unfold afterItem
  split
  · split
    · split <;> exact ended_ok _
    · exact ended_ok _
  · exact (expect_ended close _).bind fun _ _ => ended_ok _

/-! ## Tokens taken -/

/-- The wanted token is taken. -/
theorem length_of_expect {wanted : Token} {ts rest : List Token} (h : expect wanted ts = .ok rest) :
    rest.length < ts.length := by
  unfold expect at h
  split at h
  · split at h <;> cases h
    simp
  · cases h

/-- A name is taken. -/
theorem length_of_expectName {ts rest : List Token} {s : String}
    (h : expectName ts = .ok (s, rest)) : rest.length < ts.length := by
  unfold expectName at h
  split at h <;> cases h
  simp

/-- What stands after an item is taken: the comma, or what ends the list. -/
theorem length_of_afterItem {close : Token} {ts rest : List Token} {ended : Bool}
    (h : afterItem close ts = .ok (ended, rest)) : rest.length < ts.length := by
  unfold afterItem at h
  split at h
  · split at h
    · split at h
      · cases h
        simp only [List.length_cons]
        omega
      · cases h
        simp
    · cases h
      simp
  · obtain ⟨rest', hexpect, heq⟩ :
        ∃ rest', expect close ts = .ok rest' ∧ (true, rest') = (ended, rest) := by
      cases hexpect : expect close ts with
      | error e => rw [hexpect] at h; cases h
      | ok rest' => rw [hexpect] at h; exact ⟨rest', rfl, Except.ok.inj h⟩
    cases heq
    exact length_of_expect hexpect

/-- An operator is taken. -/
theorem length_of_splitOperator? {level : Level} {op : BinaryOp} {ts rest : List Token}
    (h : level.splitOperator? ts = some (op, rest)) : rest.length < ts.length := by
  cases ts with
  | nil => cases h
  | cons t ts =>
    obtain ⟨op', -, heq⟩ := Option.map_eq_some_iff.mp h
    cases heq
    simp

/-- With that many steps, readers of operands take tokens, and the others give none back. -/
structure Consumes (steps : Nat) : Prop where
  level : ∀ {level ts e rest}, readLevel steps level ts = .ok (e, rest) → rest.length < ts.length
  operands : ∀ {level left ts e rest}, readOperands steps level left ts = .ok (e, rest) →
    rest.length ≤ ts.length
  suffixes : ∀ {left ts e rest}, readSuffixes steps left ts = .ok (e, rest) →
    rest.length ≤ ts.length
  arguments : ∀ {named ts args rest}, readArguments steps named ts = .ok (args, rest) →
    rest.length < ts.length
  primary : ∀ {ts e rest}, readPrimary steps ts = .ok (e, rest) → rest.length < ts.length
  items : ∀ {ts items rest}, readItems steps ts = .ok (items, rest) → rest.length < ts.length
  entries : ∀ {ts entries rest}, readEntries steps ts = .ok (entries, rest) →
    rest.length < ts.length

namespace Consumes

variable {steps : Nat}

/-- On any level the operand, at least, takes a token. -/
theorem level_succ (h : Consumes steps) {level : Level} {ts rest : List Token} {e : Expr}
    (hread : readLevel (steps + 1) level ts = .ok (e, rest)) : rest.length < ts.length := by
  cases level with
  | not =>
    unfold readLevel at hread
    split at hread
    · obtain ⟨⟨operand, after⟩, hoperand, hread⟩ := except_bind_eq_ok.mp hread
      cases hread
      exact Nat.lt_succ_of_lt (h.level hoperand)
    · exact h.level hread
  | comparison =>
    rw [readLevel] at hread
    obtain ⟨⟨left, afterLeft⟩, hleft, hread⟩ := except_bind_eq_ok.mp hread
    have hlt := h.level hleft
    simp only at hread
    split at hread
    case h_1 afterOp hsplit =>
      obtain ⟨⟨right, afterRight⟩, hright, hread⟩ := except_bind_eq_ok.mp hread
      cases hread
      have hop := length_of_splitOperator? hsplit
      exact Nat.lt_trans (h.level hright) (Nat.lt_trans hop hlt)
    case h_2 =>
      cases hread
      exact hlt
  | sign =>
    unfold readLevel at hread
    split at hread
    · obtain ⟨⟨operand, after⟩, hoperand, hread⟩ := except_bind_eq_ok.mp hread
      cases hread
      exact Nat.lt_succ_of_lt (h.level hoperand)
    · obtain ⟨⟨operand, after⟩, hoperand, hread⟩ := except_bind_eq_ok.mp hread
      cases hread
      exact Nat.lt_succ_of_lt (h.level hoperand)
    · exact Nat.lt_succ_of_lt (h.level hread)
    · exact h.level hread
  | suffix =>
    rw [readLevel] at hread
    obtain ⟨⟨left, after⟩, hleft, hread⟩ := except_bind_eq_ok.mp hread
    exact Nat.lt_of_le_of_lt (h.suffixes hread) (h.primary hleft)
  | or | and | pipe | amp | sum | product =>
    rw [readLevel_chain (by simp)] at hread
    obtain ⟨⟨left, after⟩, hleft, hread⟩ := except_bind_eq_ok.mp hread
    exact Nat.lt_of_le_of_lt (h.operands hread) (h.level hleft)

/-- A chain may have no more operands. -/
theorem operands_succ (h : Consumes steps) {level : Level} {left : Expr} {ts rest : List Token}
    {e : Expr} (hread : readOperands (steps + 1) level left ts = .ok (e, rest)) :
    rest.length ≤ ts.length := by
  rw [readOperands] at hread
  split at hread
  case h_1 hsplit =>
    obtain ⟨⟨right, after⟩, hright, hread⟩ := except_bind_eq_ok.mp hread
    have := h.operands hread
    have := h.level hright
    have := length_of_splitOperator? hsplit
    omega
  case h_2 =>
    cases hread
    exact Nat.le_refl _

/-- There may be no more suffixes. -/
theorem suffixes_succ (h : Consumes steps) {left e : Expr} {ts rest : List Token}
    (hread : readSuffixes (steps + 1) left ts = .ok (e, rest)) : rest.length ≤ ts.length := by
  unfold readSuffixes at hread
  split at hread
  · obtain ⟨⟨position, afterPosition⟩, hposition, hread⟩ := except_bind_eq_ok.mp hread
    obtain ⟨after, hclose, hread⟩ := except_bind_eq_ok.mp hread
    have := h.level hposition
    have := length_of_expect hclose
    have := h.suffixes hread
    simp only [List.length_cons]
    omega
  · obtain ⟨⟨name, after⟩, hname, hread⟩ := except_bind_eq_ok.mp hread
    have := length_of_expectName hname
    have := h.suffixes hread
    simp only [List.length_cons]
    omega
  · simp only at hread
    split at hread
    · obtain ⟨⟨arguments, after⟩, harguments, hread⟩ := except_bind_eq_ok.mp hread
      cases harguments
      have hle := h.suffixes hread
      dsimp only at hle
      simp only [List.length_cons]
      omega
    · obtain ⟨⟨arguments, after⟩, harguments, hread⟩ := except_bind_eq_ok.mp hread
      have := h.arguments harguments
      have : rest.length ≤ after.length := h.suffixes hread
      simp only [List.length_cons]
      omega
  · cases hread
    exact Nat.le_refl _

/-- Arguments take their values and what ends them. -/
theorem arguments_succ (h : Consumes steps) {named : List (String × Expr)} {ts rest : List Token}
    {args : Arguments} (hread : readArguments (steps + 1) named ts = .ok (args, rest)) :
    rest.length < ts.length := by
  unfold readArguments at hread
  split at hread
  · obtain ⟨⟨value, afterValue⟩, hvalue, hread⟩ := except_bind_eq_ok.mp hread
    obtain ⟨⟨ended, after⟩, hafter, hread⟩ := except_bind_eq_ok.mp hread
    have := h.level hvalue
    have := length_of_afterItem hafter
    simp only [List.length_cons]
    simp only at hread
    split at hread
    · cases hread
      omega
    · have := h.arguments hread
      omega
  · split at hread
    · obtain ⟨⟨value, afterValue⟩, hvalue, hread⟩ := except_bind_eq_ok.mp hread
      obtain ⟨⟨ended, after⟩, hafter, hread⟩ := except_bind_eq_ok.mp hread
      have := h.level hvalue
      have := length_of_afterItem hafter
      simp only at hread
      split at hread
      · cases hread
        omega
      · obtain ⟨⟨others, last⟩, hothers, hread⟩ := except_bind_eq_ok.mp hread
        cases hread
        have : last.length < after.length := h.arguments hothers
        dsimp only
        omega
    · cases hread

/-- An operand takes its own token, or its brackets. -/
theorem primary_succ (h : Consumes steps) {ts rest : List Token} {e : Expr}
    (hread : readPrimary (steps + 1) ts = .ok (e, rest)) : rest.length < ts.length := by
  unfold readPrimary at hread
  split at hread
  · obtain ⟨⟨inner, afterInner⟩, hinner, hread⟩ := except_bind_eq_ok.mp hread
    obtain ⟨after, hclose, hread⟩ := except_bind_eq_ok.mp hread
    cases hread
    have := h.level hinner
    have := length_of_expect hclose
    simp only [List.length_cons]
    omega
  · cases hread
    simp only [List.length_cons]
    omega
  · obtain ⟨⟨items, after⟩, hitems, hread⟩ := except_bind_eq_ok.mp hread
    cases hread
    exact Nat.lt_succ_of_lt (h.items hitems)
  · cases hread
    simp only [List.length_cons]
    omega
  · obtain ⟨⟨entries, after⟩, hentries, hread⟩ := except_bind_eq_ok.mp hread
    cases hread
    exact Nat.lt_succ_of_lt (h.entries hentries)
  · split at hread <;> cases hread
    simp
  · cases hread

/-- Items take themselves and what ends them. -/
theorem items_succ (h : Consumes steps) {ts rest : List Token} {items : List Expr}
    (hread : readItems (steps + 1) ts = .ok (items, rest)) : rest.length < ts.length := by
  rw [readItems] at hread
  obtain ⟨⟨item, afterItem⟩, hitem, hread⟩ := except_bind_eq_ok.mp hread
  obtain ⟨⟨ended, after⟩, hafter, hread⟩ := except_bind_eq_ok.mp hread
  have := h.level hitem
  have := length_of_afterItem hafter
  simp only at hread
  split at hread
  · cases hread
    omega
  · obtain ⟨⟨others, last⟩, hothers, hread⟩ := except_bind_eq_ok.mp hread
    cases hread
    have : last.length < after.length := h.items hothers
    dsimp only
    omega

/-- Entries take themselves and what ends them. -/
theorem entries_succ (h : Consumes steps) {ts rest : List Token} {entries : List (Expr × Expr)}
    (hread : readEntries (steps + 1) ts = .ok (entries, rest)) : rest.length < ts.length := by
  rw [readEntries] at hread
  obtain ⟨⟨key, afterKey⟩, hkey, hread⟩ := except_bind_eq_ok.mp hread
  obtain ⟨beforeValue, hcolon, hread⟩ := except_bind_eq_ok.mp hread
  obtain ⟨⟨value, afterValue⟩, hvalue, hread⟩ := except_bind_eq_ok.mp hread
  obtain ⟨⟨ended, after⟩, hafter, hread⟩ := except_bind_eq_ok.mp hread
  have := h.level hkey
  have := length_of_expect hcolon
  have := h.level hvalue
  have := length_of_afterItem hafter
  simp only at hread
  split at hread
  · cases hread
    omega
  · obtain ⟨⟨others, last⟩, hothers, hread⟩ := except_bind_eq_ok.mp hread
    cases hread
    have : last.length < after.length := h.entries hothers
    dsimp only
    omega

end Consumes

/-- However many steps there are, readers take tokens. -/
theorem consumes (steps : Nat) : Consumes steps := by
  induction steps with
  | zero =>
    -- a reader without steps is cut off, so it has read nothing
    constructor <;> intros <;> rename_i h
    · rw [readLevel] at h; cases h
    · rw [readOperands] at h; cases h
    · rw [readSuffixes] at h; cases h
    · rw [readArguments] at h; cases h
    · rw [readPrimary] at h; cases h
    · rw [readItems] at h; cases h
    · rw [readEntries] at h; cases h
  | succ steps ih =>
    exact ⟨ih.level_succ, ih.operands_succ, ih.suffixes_succ, ih.arguments_succ, ih.primary_succ,
      ih.items_succ, ih.entries_succ⟩

/-! ## Steps that are enough -/

/-- That many steps are enough for the readers: each comes to an end by itself, and with one more step to
the same, as long as there are twelve steps for each token, and as many more as calls can follow before a
token is taken. -/
structure Settled (steps : Nat) : Prop where
  level : ∀ {level ts}, 12 * ts.length + 11 ≤ steps + level.rank →
    SameEnd (readLevel (steps + 1) level ts) (readLevel steps level ts)
  operands : ∀ {level left ts}, 12 * ts.length + 1 ≤ steps →
    SameEnd (readOperands (steps + 1) level left ts) (readOperands steps level left ts)
  suffixes : ∀ {left ts}, 12 * ts.length + 1 ≤ steps →
    SameEnd (readSuffixes (steps + 1) left ts) (readSuffixes steps left ts)
  arguments : ∀ {named ts}, 12 * ts.length + 12 ≤ steps →
    SameEnd (readArguments (steps + 1) named ts) (readArguments steps named ts)
  primary : ∀ {ts}, 12 * ts.length + 1 ≤ steps →
    SameEnd (readPrimary (steps + 1) ts) (readPrimary steps ts)
  items : ∀ {ts}, 12 * ts.length + 12 ≤ steps → SameEnd (readItems (steps + 1) ts) (readItems steps ts)
  entries : ∀ {ts}, 12 * ts.length + 12 ≤ steps →
    SameEnd (readEntries (steps + 1) ts) (readEntries steps ts)

namespace Settled

variable {steps : Nat} {ts : List Token}

/-- A reading inside brackets begins on the loosest level. -/
theorem inner (h : Settled steps) (hsteps : 12 * ts.length + 11 ≤ steps) :
    SameEnd (readLevel (steps + 1) .or ts) (readLevel steps .or ts) := h.level hsteps

/-- A chain of operands: the first operand takes a token, and the others have the rest. -/
theorem chain_succ (h : Settled steps) {level : Level}
    (hlevel : level ∈ [Level.or, .and, .pipe, .amp, .sum, .product])
    (hsteps : 12 * ts.length + 11 ≤ steps + 1 + level.rank) :
    SameEnd (readLevel (steps + 2) level ts) (readLevel (steps + 1) level ts) := by
  have hrank := level.rank_le
  have hnext : level.next.rank = level.rank + 1 := Level.rank_next (by rintro rfl; simp at hlevel)
  rw [readLevel_chain hlevel (steps + 1), readLevel_chain hlevel steps]
  refine (h.level (by omega)).bind fun read hread => ?_
  have hlt := (consumes _).level hread
  exact h.operands (by omega)

/-- A level hands the tokens on to the next tighter one, or takes its operator first. -/
theorem level_succ (h : Settled steps) {level : Level}
    (hsteps : 12 * ts.length + 11 ≤ steps + 1 + level.rank) :
    SameEnd (readLevel (steps + 2) level ts) (readLevel (steps + 1) level ts) := by
  -- with no token taken the next level is one tighter, which is what the step is paid with
  have hrank := level.rank_le
  cases level with
  | not =>
    rw [readLevel.eq_def (steps + 2), readLevel.eq_def (steps + 1)]
    simp only [Level.rank] at hsteps
    dsimp only
    split
    · simp only [List.length_cons] at hsteps
      exact (h.level (by simp only [Level.rank]; omega)).bind fun _ _ => sameEnd_ok _
    · exact h.level (by simp only [Level.rank]; omega)
  | comparison =>
    rw [readLevel, readLevel]
    simp only [Level.rank] at hsteps
    refine (h.level (by simp only [Level.rank]; omega)).bind fun read hread => ?_
    have hlt := (consumes _).level hread
    dsimp only
    split
    case h_1 hsplit =>
      have := length_of_splitOperator? hsplit
      exact (h.level (by simp only [Level.rank]; omega)).bind fun _ _ => sameEnd_ok _
    case h_2 => exact sameEnd_ok _
  | sign =>
    rw [readLevel.eq_def (steps + 2), readLevel.eq_def (steps + 1)]
    simp only [Level.rank] at hsteps
    dsimp only
    split
    case h_1 | h_2 =>
      simp only [List.length_cons] at hsteps
      exact (h.level (by simp only [Level.rank]; omega)).bind fun _ _ => sameEnd_ok _
    case h_3 =>
      simp only [List.length_cons] at hsteps
      exact h.level (by simp only [Level.rank]; omega)
    case h_4 => exact h.level (by simp only [Level.rank]; omega)
  | suffix =>
    rw [readLevel, readLevel]
    simp only [Level.rank] at hsteps
    refine (h.primary (by omega)).bind fun read hread => ?_
    have hlt := (consumes _).primary hread
    exact h.suffixes (by omega)
  | or | and | pipe | amp | sum | product => exact h.chain_succ (by simp) hsteps

/-- Each operator of a chain takes a token, and so does the operand after it. -/
theorem operands_succ (h : Settled steps) {level : Level} {left : Expr}
    (hsteps : 12 * ts.length + 1 ≤ steps + 1) :
    SameEnd (readOperands (steps + 2) level left ts) (readOperands (steps + 1) level left ts) := by
  rw [readOperands, readOperands]
  split
  case h_1 hsplit =>
    have hlt := length_of_splitOperator? hsplit
    refine (h.level (by omega)).bind fun read hread => ?_
    have hlt₂ := (consumes _).level hread
    exact h.operands (by omega)
  case h_2 => exact sameEnd_ok _

/-- Each suffix takes the token that it begins with. -/
theorem suffixes_succ (h : Settled steps) {left : Expr} (hsteps : 12 * ts.length + 1 ≤ steps + 1) :
    SameEnd (readSuffixes (steps + 2) left ts) (readSuffixes (steps + 1) left ts) := by
  rw [readSuffixes.eq_def (steps + 2), readSuffixes.eq_def (steps + 1)]
  dsimp only
  split
  · simp only [List.length_cons] at hsteps
    refine (h.inner (by omega)).bind fun read hread => ?_
    have hlt := (consumes _).level hread
    refine (expect_ended _ _).same.bind fun after hclose => ?_
    have hlt₂ := length_of_expect hclose
    exact h.suffixes (by omega)
  · simp only [List.length_cons] at hsteps
    refine (expectName_ended _).same.bind fun read hread => ?_
    have hlt := length_of_expectName hread
    exact h.suffixes (by omega)
  · simp only [List.length_cons] at hsteps
    -- a call without arguments takes its closing bracket without their reader
    split
    · simp only [List.length_cons] at hsteps
      refine (sameEnd_ok _).bind fun read hread => ?_
      cases hread
      exact h.suffixes (by dsimp only; omega)
    · refine (h.arguments (by omega)).bind fun read hread => ?_
      have hlt := (consumes _).arguments hread
      exact h.suffixes (by omega)
  · exact sameEnd_ok _

/-- Each argument takes a token, and what stands after it another one. -/
theorem arguments_succ (h : Settled steps) {named : List (String × Expr)}
    (hsteps : 12 * ts.length + 12 ≤ steps + 1) :
    SameEnd (readArguments (steps + 2) named ts) (readArguments (steps + 1) named ts) := by
  rw [readArguments.eq_def (steps + 2), readArguments.eq_def (steps + 1)]
  dsimp only
  split
  · simp only [List.length_cons] at hsteps
    refine (h.inner (by omega)).bind fun read hread => ?_
    have hlt := (consumes _).level hread
    refine (afterItem_ended _ _).same.bind ?_
    rintro ⟨ended, after⟩ hafter
    have hlt₂ : after.length < _ := length_of_afterItem hafter
    dsimp only
    split
    · exact sameEnd_ok _
    · exact h.arguments (by omega)
  · split
    · refine (h.inner (by omega)).bind fun read hread => ?_
      have hlt := (consumes _).level hread
      refine (afterItem_ended _ _).same.bind ?_
      rintro ⟨ended, after⟩ hafter
      have hlt₂ : after.length < _ := length_of_afterItem hafter
      dsimp only
      split
      · exact sameEnd_ok _
      · exact (h.arguments (by omega)).bind fun _ _ => sameEnd_ok _
    · exact sameEnd_error (by simp)

/-- An operand is a token by itself, or what stands in brackets after the first token. -/
theorem primary_succ (h : Settled steps) (hsteps : 12 * ts.length + 1 ≤ steps + 1) :
    SameEnd (readPrimary (steps + 2) ts) (readPrimary (steps + 1) ts) := by
  rw [readPrimary.eq_def (steps + 2), readPrimary.eq_def (steps + 1)]
  dsimp only
  split
  case h_1 =>
    simp only [List.length_cons] at hsteps
    refine (h.inner (by omega)).bind fun _ _ => ?_
    exact (expect_ended _ _).same.bind fun _ _ => sameEnd_ok _
  case h_2 | h_4 => exact sameEnd_ok _
  case h_3 =>
    simp only [List.length_cons] at hsteps
    exact (h.items (by omega)).bind fun _ _ => sameEnd_ok _
  case h_5 =>
    simp only [List.length_cons] at hsteps
    exact (h.entries (by omega)).bind fun _ _ => sameEnd_ok _
  case h_6 token _ _ _ _ _ _ =>
    cases token.operand? with
    | some e => exact sameEnd_ok _
    | none => exact sameEnd_error (by simp)
  case h_7 => exact sameEnd_error (by simp)

/-- Each item takes a token, and what stands after it another one. -/
theorem items_succ (h : Settled steps) (hsteps : 12 * ts.length + 12 ≤ steps + 1) :
    SameEnd (readItems (steps + 2) ts) (readItems (steps + 1) ts) := by
  rw [readItems, readItems]
  refine (h.inner (by omega)).bind fun read hread => ?_
  have hlt := (consumes _).level hread
  refine (afterItem_ended _ _).same.bind ?_
  rintro ⟨ended, after⟩ hafter
  have hlt₂ : after.length < _ := length_of_afterItem hafter
  dsimp only
  split
  · exact sameEnd_ok _
  · exact (h.items (by omega)).bind fun _ _ => sameEnd_ok _

/-- Each entry takes a token for its key, one for the colon and one for its value. -/
theorem entries_succ (h : Settled steps) (hsteps : 12 * ts.length + 12 ≤ steps + 1) :
    SameEnd (readEntries (steps + 2) ts) (readEntries (steps + 1) ts) := by
  rw [readEntries, readEntries]
  refine (h.inner (by omega)).bind fun key hkey => ?_
  have hlt := (consumes _).level hkey
  refine (expect_ended _ _).same.bind fun beforeValue hcolon => ?_
  have hlt₂ := length_of_expect hcolon
  refine (h.inner (by omega)).bind fun value hvalue => ?_
  have hlt₃ := (consumes _).level hvalue
  refine (afterItem_ended _ _).same.bind ?_
  rintro ⟨ended, after⟩ hafter
  have hlt₄ : after.length < _ := length_of_afterItem hafter
  dsimp only
  split
  · exact sameEnd_ok _
  · exact (h.entries (by omega)).bind fun _ _ => sameEnd_ok _

end Settled

/-- Every number of steps is enough for tokens that it is in proportion to. -/
theorem settled (steps : Nat) : Settled steps := by
  induction steps with
  | zero =>
    -- no tokens are so few that no step is enough for them
    constructor <;> intros
    · rename_i level ts hsteps
      have := level.rank_le
      omega
    all_goals omega
  | succ steps ih =>
    exact ⟨ih.level_succ, ih.operands_succ, ih.suffixes_succ, ih.arguments_succ, ih.primary_succ,
      ih.items_succ, ih.entries_succ⟩

/-! ## Expressions, statements and lines -/

/-- With any more steps than `expression` asks for the answer is the same, be it an expression or a
fault. -/
theorem readLevel_eq_expression (ts : List Token) {steps : Nat}
    (hsteps : 12 * (ts.length + 1) ≤ steps) : readLevel steps .or ts = expression ts := by
  obtain ⟨extra, rfl⟩ := Nat.exists_eq_add_of_le hsteps
  -- one step at a time, each of which changes nothing
  induction extra with
  | zero => rfl
  | succ extra ih =>
    rw [← Nat.add_assoc, ((settled _).inner (by omega)).eq]
    exact ih (by omega)

/-- No expression is cut off: reading one comes to an end by itself on all tokens. -/
theorem expression_ended (ts : List Token) : Ended (expression ts) := by
  have hsame : SameEnd (readLevel (12 * (ts.length + 1) + 1) .or ts) (expression ts) :=
    (settled _).inner (by omega)
  exact hsame.eq ▸ hsame.ended

/-- An expression that nothing can be assigned to is a fault. -/
theorem targetOf_ended (e : Expr) : Ended (targetOf e) := by
  unfold targetOf
  split
  · exact ended_ok _
  · exact ended_ok _
  · exact ended_error (by simp)
  · exact ended_error (by simp)

/-- No statement is cut off. -/
theorem statement_ended (ts : List Token) : Ended (statement ts) := by
  unfold statement
  split
  · refine (expectName_ended _).bind fun _ _ => ?_
    dsimp only
    split
    · exact (expectName_ended _).bind fun _ _ => ended_ok _
    · exact ended_ok _
  · refine (expression_ended _).bind fun _ _ => ?_
    exact (targetOf_ended _).bind fun _ _ => ended_ok _
  · refine (expression_ended _).bind fun _ _ => ?_
    dsimp only
    split
    · refine (targetOf_ended _).bind fun _ _ => ?_
      exact (expression_ended _).bind fun _ _ => ended_ok _
    · exact ended_ok _

/-- A string that is not closed is a fault. -/
theorem readString_ended (quote : Char) (raw : Bool) (cs : List Char) :
    Ended (readString quote raw cs) := by
  unfold readString
  split
  · exact ended_ok _
  · exact ended_error (by simp)

/-- So is a word of digits and points that is no number. -/
theorem readNumber_ended (cs : List Char) : Ended (readNumber cs) := by
  unfold readNumber
  dsimp only
  split
  · exact ended_ok _
  · exact ended_error (by simp)

/-- So is a character that begins no token. -/
theorem readShortSign_ended (c : Char) (rest : List Char) : Ended (readShortSign c rest) := by
  unfold readShortSign
  split
  · exact ended_ok _
  · exact ended_error (by simp)

/-- Reading a token comes to an end, whatever it begins with. -/
theorem readToken_ended (c : Char) (rest : List Char) : Ended (readToken c rest) := by
  unfold readToken readSign
  split
  · exact readString_ended _ _ _
  · split
    · exact readNumber_ended _
    · split
      · -- a letter begins a raw string or a name
        split
        · split
          · exact readString_ended _ _ _
          · exact ended_ok _
        · exact ended_ok _
      · split
        · exact ended_ok _
        · exact readShortSign_ended _ _

/-- So does reading the tokens of a line, each of which takes a character. -/
theorem tokens_ended (line : List Char) : Ended (tokens line) := by
  -- on the length of the line, since a token may take several characters
  induction hn : line.length using Nat.strongRecOn generalizing line with
  | _ n ih =>
    cases line with
    | nil => exact ended_ok _
    | cons c rest =>
      have hlt : rest.length < n := by simp [← hn]
      rw [tokens_cons]
      split
      · exact ih _ hlt rest rfl
      · split
        · exact ended_ok _
        · split
          case h_1 e hread =>
            exact ended_error fun he => readToken_ended c rest (he ▸ hread)
          case h_2 token after hread =>
            have hle := length_readToken hread
            refine (ih _ (by omega) after rfl).bind fun _ _ => ended_ok _

/-- No line is cut off: it has a statement, or it has none, or it has a fault. -/
theorem lineStatement?_ended (line : List Char) : Ended (lineStatement? line) := by
  refine (tokens_ended line).bind fun ts _ => ?_
  split
  · exact ended_ok _
  · refine (statement_ended ts).bind fun _ _ => ?_
    dsimp only
    split
    · exact ended_ok _
    · exact ended_error (by simp)

end TableScript.Script
