import TableScript.Proofs.Effects
import TableScript.Proofs.LineFeeds
import TableScript.Proofs.Lines

/-!
# Quoted texts stay inside their quotes

Headers and paths get into lines of code as literals. Whatever characters are in them, backslashes, both
kinds of quotes, number signs and line feeds included, the literal is read back as nothing but the text,
whatever is written after it, and it ends neither the line nor the reading of the line
(`quoted_texts_are_embedded`). This holds of strings, of paths in either of their two forms, and of lists
of strings, which evaluate to the texts in their order.

The characters of strings and paths are followed one by one in `tokens_stringLiteral_append` and
`tokens_pathLiteral_append`; brackets around a list end it as quotes end a string. Here it is said what
that means for the line in which a literal stands.
-/

namespace TableScript.Script

open Text

/-- The code is read as the tokens wherever it begins, and leaves alone what is written around it. -/
structure Embeds (code : String) (ts : List Token) : Prop where
  /-- Nothing but the tokens is read from the code by itself. -/
  alone : tokens code.toList = .ok ts
  /-- What is written directly after the code is read as if it began the line. -/
  before (rest : List Char) : tokens (code.toList ++ rest) = (tokens rest).map (ts ++ ·)
  /-- So is what comes after the comma or the parenthesis that follows the code. -/
  separated {c : Char} {sign : Token}
    (separator : (c, sign) ∈ [(',', Token.comma), ('(', .lParen), (')', .rParen)]) (rest : List Char) :
    tokens (code.toList ++ c :: rest) = (tokens rest).map ((ts ++ [sign]) ++ ·)
  /-- No character of the code can end a line. -/
  endless : '\n' ∉ code.toList ∧ '\r' ∉ code.toList
  /-- A line of a script that has the code in it is one line, with all its characters. -/
  inLine {before after : List Char} (hbefore : '\n' ∉ before) (hafter : ∀ c ∈ ['\n', '\r'], c ∉ after)
    (rest : List Char) : linesOf (before ++ (code.toList ++ after) ++ '\n' :: rest) =
      (before ++ (code.toList ++ after)) :: linesOf rest

/-- A line without a carriage return at its end is kept whole. -/
theorem linesOf_append_newline_of_getLast? {line : List Char} (h : '\n' ∉ line)
    (hlast : line.getLast? ≠ some '\r') (rest : List Char) :
    linesOf (line ++ '\n' :: rest) = line :: linesOf rest := by
  rw [linesOf_append_newline line rest h, dropReturn, if_neg hlast]

/-- All that matters is how the code is read before any other, and that no line ends in it. -/
theorem Embeds.of_append {code : String} {ts : List Token} (hne : code.toList ≠ [])
    (happend : ∀ rest, tokens (code.toList ++ rest) = (tokens rest).map (ts ++ ·))
    (hends : ∀ c ∈ ['\n', '\r'], c ∉ code.toList) : Embeds code ts where
  alone := by
    have halone := happend []
    rwa [List.append_nil, tokens_nil, Except.map, List.append_nil] at halone
  before := happend
  separated {c sign} separator rest := by
    have hsign : tokens (c :: rest) = (tokens rest).map ([sign] ++ ·) := by
      simp only [List.mem_cons, Prod.mk.injEq, List.not_mem_nil, or_false] at separator
      rcases separator with ⟨rfl, rfl⟩ | ⟨rfl, rfl⟩ | ⟨rfl, rfl⟩ <;>
        exact tokens_sign _ rfl (by decide) rest
    rw [happend, hsign, map_append_map]
  endless := ⟨hends _ (by simp), hends _ (by simp)⟩
  inLine {before after} hbefore hafter rest := by
    have hfeed : '\n' ∉ before ++ (code.toList ++ after) := by
      simp [hbefore, hends '\n' (by simp), hafter '\n' (by simp)]
    refine linesOf_append_newline_of_getLast? hfeed (fun hlast => ?_) rest
    -- the last character of the line is one of the code or of what follows it
    rw [List.getLast?_append_of_ne_nil _ (by simp [hne])] at hlast
    rcases List.mem_append.mp (List.mem_of_getLast? hlast) with hmem | hmem
    · exact hends '\r' (by simp) hmem
    · exact hafter '\r' (by simp) hmem

/-- The literal of a text stands for it wherever it is put. -/
theorem embeds_stringLiteral (s : String) : Embeds (stringLiteral s) [.str s] :=
  .of_append (by simp [stringLiteral, literalChars]) (tokens_stringLiteral_append s)
    fun _ hc => not_mem_stringLiteral hc s

/-- So does the literal of a path. -/
theorem embeds_pathLiteral (path : String) : Embeds (pathLiteral path) [.str path] := by
  refine .of_append ?_ (tokens_pathLiteral_append path) fun _ hc => not_mem_pathLiteral hc path
  rw [pathLiteral, String.toList_ofList, pathChars]
  split <;> simp [literalChars]

/-- So does the literal of a list of texts. -/
theorem embeds_textListLiteral (texts : List String) :
    Embeds (textListLiteral texts) (.lBracket :: (textTokens texts ++ [.rBracket])) :=
  .of_append (by simp [textListLiteral, String.toList_append]) (tokens_textListLiteral_append texts)
    fun _ hc => not_mem_textListLiteral hc texts

/-- A literal of a text or of a path is that text and nothing else, wherever it stands, and a list of such
literals is an expression for the list of the texts, whatever expression it is a part of. -/
theorem quoted_texts_are_embedded (s path : String) (texts : List String) :
    Embeds (stringLiteral s) [.str s] ∧ Embeds (pathLiteral path) [.str path] ∧
    ∃ ts e, Embeds (textListLiteral texts) ts ∧ ReadsAs ts e ∧
      lineStatement? (textListLiteral texts).toList = .ok (some (.expr e)) ∧
      ∀ files scope, eval files e scope = .ok (.scalar (.ofTexts texts), scope) := by
  refine ⟨embeds_stringLiteral s, embeds_pathLiteral path, _, _, embeds_textListLiteral texts,
    readsAs_texts texts, ?_, fun files scope => ?_⟩
  · refine lineStatement?_eq (embeds_textListLiteral texts).alone (by simp) ?_
    exact statement_expression (by simp) (readsAs_texts texts).expression_eq
  · exact eval_items files scope fun s _ => eval_literal files scope (.str s)

/-- A path is raw unless its last backslash would protect the closing quote. -/
example : pathLiteral "C:\\data#1" = "r'C:\\data#1'" ∧ pathLiteral "C:\\" = "'C:\\\\'" := by decide

end TableScript.Script
