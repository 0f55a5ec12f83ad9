import TableScript.Proofs.Lexemes
import TableScript.Proofs.Parsing
import TableScript.Chunk

/-!
# The statements of generated lines

Chunks make five kinds of lines: one that reads a file, one that inserts a column, one that renames
columns, one that drops columns and one that copies a dataframe. Each line is read as the statement it
was made to be (`lineStatement?_readLine` and its likes below), for arbitrary headers and paths, as long
as the names in it are words that no rule of the language takes for itself where they stand.

Literals are put together from parts. `Spells cs ts` says that the characters `cs` are read as the
tokens `ts` where a comma, a colon, a closing bracket or nothing follows them; lists and dictionaries of
literals spell what their parts spell.
-/

namespace TableScript.Script

/-! ## Spelling -/

/-- What follows a part of a literal: a comma, a colon, a closing bracket or nothing. -/
def EndsPiece (rest : List Char) : Prop :=
  ∀ c ∈ rest.head?, c ∈ [',', ':', ')', ']', '\x7d']

/-- A piece ends at the end of the text. -/
theorem endsPiece_nil : EndsPiece [] := fun _ hc => nomatch hc

/-- A piece ends before a comma, a colon or a closing bracket. -/
theorem endsPiece_cons (c : Char) (rest : List Char) :
    EndsPiece (c :: rest) ↔ c ∈ [',', ':', ')', ']', '\x7d'] := by
  simp [EndsPiece]

/-- The characters are read as the tokens where a part of a literal can end. -/
def Spells (cs : List Char) (ts : List Token) : Prop :=
  ∀ rest, EndsPiece rest → tokens (cs ++ rest) = (tokens rest).map (ts ++ ·)

/-- Tokens put before tokens put before what is read. -/
theorem map_append_map (x : Except SyntaxError (List Token)) (first second : List Token) :
    (x.map (second ++ ·)).map (first ++ ·) = x.map ((first ++ second) ++ ·) := by
  cases x with
  | error e => rfl
  | ok ts => exact congrArg Except.ok (List.append_assoc first second ts).symm

/-- The literal of a text spells the text. -/
theorem spells_stringLiteral (s : String) : Spells (stringLiteral s).toList [.str s] :=
  fun rest _ => tokens_stringLiteral_append s rest

/-- A comma and a blank are one token. -/
theorem tokens_comma (rest : List Char) :
    tokens (',' :: ' ' :: rest) = (tokens rest).map ([.comma] ++ ·) := by
  rw [tokens_sign .comma rfl (by decide), tokens_space (by decide)]
  rfl

/-- So are a colon and a blank. -/
theorem tokens_colon (rest : List Char) :
    tokens (':' :: ' ' :: rest) = (tokens rest).map ([.colon] ++ ·) := by
  rw [tokens_sign .colon rfl (by decide), tokens_space (by decide)]
  rfl

/-- A key and its value. -/
theorem toList_entry_append (key value : String) (rest : List Char) :
    (key ++ ": " ++ value).toList ++ rest = key.toList ++ ':' :: ' ' :: (value.toList ++ rest) := by
  simp [String.toList_append]

/-- A key and a value with a colon between them spell an entry. -/
theorem Spells.entry {key value : String} {ks vs : List Token} (hkey : Spells key.toList ks)
    (hvalue : Spells value.toList vs) :
    Spells (key ++ ": " ++ value).toList (ks ++ .colon :: vs) := by
  intro rest hrest
  rw [toList_entry_append, hkey _ ((endsPiece_cons _ _).mpr (by simp)), tokens_colon, hvalue rest hrest,
    map_append_map, map_append_map]
  simp

/-- The first of some parts, and a comma after it. -/
theorem toList_intercalate_cons (piece next : String) (pieces : List String) (rest : List Char) :
    (", ".intercalate (piece :: next :: pieces)).toList ++ rest =
      piece.toList ++ ',' :: ' ' :: ((", ".intercalate (next :: pieces)).toList ++ rest) := by
  simp [String.toList_intercalate]

/-- Parts with commas between them. -/
theorem Spells.intercalate {α : Type} {f : α → String} {g : α → List Token} {items : List α}
    (h : ∀ a ∈ items, Spells (f a).toList (g a)) :
    Spells (", ".intercalate (items.map f)).toList ([Token.comma].intercalate (items.map g)) := by
  induction items with
  | nil =>
    intro rest _
    change tokens rest = _
    cases tokens rest <;> rfl
  | cons a items ih =>
    obtain ⟨hfirst, hmore⟩ := List.forall_mem_cons.mp h
    cases items with
    | nil => simpa [String.toList_intercalate] using hfirst
    | cons b items =>
      intro rest hends
      simp only [List.map_cons] at ih ⊢
      rw [toList_intercalate_cons, List.intercalate_cons_cons,
        hfirst _ ((endsPiece_cons _ _).mpr (by simp)), tokens_comma, ih hmore rest hends, map_append_map,
        map_append_map]

/-- A part in brackets. -/
theorem tokens_list_append (s : String) (rest : List Char) :
    tokens (("[" ++ s ++ "]").toList ++ rest) =
      (tokens (s.toList ++ ']' :: rest)).map (.lBracket :: ·) := by
  have happend : ("[" ++ s ++ "]").toList ++ rest = '[' :: (s.toList ++ ']' :: rest) := by
    simp [String.toList_append]
  rw [happend, tokens_sign .lBracket rfl (by decide)]

/-- Brackets end a list by themselves, so anything may follow it. -/
theorem Spells.list_append {s : String} {ts : List Token} (h : Spells s.toList ts) (rest : List Char) :
    tokens (("[" ++ s ++ "]").toList ++ rest) =
      (tokens rest).map ((.lBracket :: (ts ++ [.rBracket])) ++ ·) := by
  rw [tokens_list_append, h _ ((endsPiece_cons _ _).mpr (by simp)),
    tokens_sign .rBracket rfl (by decide)]
  cases tokens rest <;> simp [Except.map]

/-- Brackets around items spell a list of them. -/
theorem Spells.list {s : String} {ts : List Token} (h : Spells s.toList ts) :
    Spells ("[" ++ s ++ "]").toList (.lBracket :: (ts ++ [.rBracket])) :=
  fun rest _ => h.list_append rest

/-- A part in braces. -/
theorem tokens_dict_append (s : String) (rest : List Char) :
    tokens (("\x7b" ++ s ++ "\x7d").toList ++ rest) =
      (tokens (s.toList ++ '\x7d' :: rest)).map (.lBrace :: ·) := by
  have happend : ("\x7b" ++ s ++ "\x7d").toList ++ rest = '\x7b' :: (s.toList ++ '\x7d' :: rest) := by
    simp [String.toList_append]
  rw [happend, tokens_sign .lBrace rfl (by decide)]

/-- Braces around entries spell a dictionary of them. -/
theorem Spells.dict {s : String} {ts : List Token} (h : Spells s.toList ts) :
    Spells ("\x7b" ++ s ++ "\x7d").toList (.lBrace :: (ts ++ [.rBrace])) := by
  intro rest _
  rw [tokens_dict_append, h _ ((endsPiece_cons _ _).mpr (by simp)),
    tokens_sign .rBrace rfl (by decide)]
  cases tokens rest <;> simp [Except.map]

/-! ## Lists of texts and dictionaries of texts -/

/-- The tokens of texts with commas between them. -/
def textTokens (texts : List String) : List Token :=
  [Token.comma].intercalate (texts.map fun s => [.str s])

/-- The tokens of entries with commas between them. -/
def entryTokens (entries : List (String × String)) : List Token :=
  [Token.comma].intercalate (entries.map fun entry => [.str entry.1, .colon, .str entry.2])

/-- A list of texts is read to its closing bracket, whatever follows it. -/
theorem tokens_textListLiteral_append (texts : List String) (rest : List Char) :
    tokens ((textListLiteral texts).toList ++ rest) =
      (tokens rest).map ((.lBracket :: (textTokens texts ++ [.rBracket])) ++ ·) := by
  have hitems : Spells (", ".intercalate (texts.map stringLiteral)).toList (textTokens texts) :=
    Spells.intercalate fun s _ => spells_stringLiteral s
  exact hitems.list_append rest

/-- The literal of some texts spells their list. -/
theorem spells_textListLiteral (texts : List String) :
    Spells (textListLiteral texts).toList (.lBracket :: (textTokens texts ++ [.rBracket])) :=
  fun rest _ => tokens_textListLiteral_append texts rest

/-- The entries of a literal are written one by one. -/
theorem entryLiterals_eq (entries : List (String × Value)) :
    entryLiterals entries = entries.map fun entry => stringLiteral entry.1 ++ ": " ++ literal entry.2 := by
  induction entries with
  | nil => rfl
  | cons entry rest ih => rw [entryLiterals, ih, List.map_cons]

/-- The literal of a dictionary of texts spells the dictionary. -/
theorem spells_dictLiteral (entries : List (String × String)) :
    Spells (literal (.dict (entries.map fun entry => (entry.1, .str entry.2)))).toList
      (.lBrace :: (entryTokens entries ++ [.rBrace])) := by
  rw [literal, entryLiterals_eq, List.map_map]
  refine Spells.dict (Spells.intercalate fun entry _ => ?_)
  rw [Function.comp_apply, literal]
  exact (spells_stringLiteral entry.1).entry (spells_stringLiteral entry.2)

/-- The tokens of texts are read as their literals. -/
theorem readsItems_texts (s : String) (texts : List String) :
    Opens (textTokens (s :: texts)) ∧
      ReadsItems (textTokens (s :: texts)) ((s :: texts).map fun s => .literal (.str s)) := by
  induction texts generalizing s with
  | nil => exact ⟨⟨.str s, [], rfl, by simp⟩, ReadsItems.single (ReadsAs.str s)⟩
  | cons next rest ih =>
    have hcons : textTokens (s :: next :: rest) = [.str s] ++ .comma :: textTokens (next :: rest) := by
      simp [textTokens, List.intercalate_cons_cons]
    rw [hcons]
    exact ⟨⟨.str s, _, rfl, by simp⟩, ReadsItems.cons (ReadsAs.str s) (ih next).1 (ih next).2⟩

/-- The tokens of a list of texts are read as the list. -/
theorem readsAs_texts (texts : List String) :
    ReadsAs (.lBracket :: (textTokens texts ++ [.rBracket]))
      (.list (texts.map fun s => .literal (.str s))) := by
  cases texts with
  | nil => exact ReadsAs.emptyList
  | cons s texts => exact ReadsAs.list (readsItems_texts s texts).1 (readsItems_texts s texts).2

/-- The tokens of entries are read as entries of literals. -/
theorem readsEntries_texts (entry : String × String) (entries : List (String × String)) :
    Opens (entryTokens (entry :: entries)) ∧ ReadsEntries (entryTokens (entry :: entries))
      ((entry :: entries).map fun entry => (.literal (.str entry.1), .literal (.str entry.2))) := by
  induction entries generalizing entry with
  | nil =>
    exact ⟨⟨.str entry.1, _, rfl, by simp⟩,
      ReadsEntries.single (ReadsAs.str entry.1) (ReadsAs.str entry.2)⟩
  | cons next rest ih =>
    have hcons : entryTokens (entry :: next :: rest) =
        [.str entry.1] ++ .colon :: [.str entry.2] ++ .comma :: entryTokens (next :: rest) := by
      simp [entryTokens, List.intercalate_cons_cons]
    rw [hcons]
    exact ⟨⟨.str entry.1, _, rfl, by simp⟩,
      ReadsEntries.cons (ReadsAs.str entry.1) (ReadsAs.str entry.2) (ih next).1 (ih next).2⟩

/-- The tokens of a dictionary of texts are read as the dictionary. -/
theorem readsAs_entries {entries : List (String × String)} (hne : entries ≠ []) :
    ReadsAs (.lBrace :: (entryTokens entries ++ [.rBrace]))
      (.dict (entries.map fun entry => (.literal (.str entry.1), .literal (.str entry.2)))) := by
  obtain ⟨entry, rest, rfl⟩ := List.exists_cons_of_ne_nil hne
  exact ReadsAs.dict (readsEntries_texts entry rest).1 (readsEntries_texts entry rest).2

/-! ## Parts of lines -/

/-- A word ends before a character that can neither go on with it nor open a text behind it. -/
theorem endsWord_cons {c : Char} (hc : (isNameChar c || isQuote c) = false) (rest : List Char) :
    EndsWord (c :: rest) := by
  intro d hd
  obtain rfl : c = d := Option.some.inj hd
  exact Bool.or_eq_false_iff.mp hc

/-- A name that is given to an expression. -/
theorem tokens_binding_append {name : String} (h : IsWord name.toList) (rest : List Char) :
    tokens (name.toList ++ ' ' :: '=' :: ' ' :: rest) =
      (tokens rest).map ([.name name, .assign] ++ ·) := by
  rw [tokens_name_append h (endsWord_cons (by decide) _), tokens_space (by decide),
    tokens_equals (by simp), tokens_space (by decide)]
  cases tokens rest <;> rfl

/-- A method of what a name stands for, up to its arguments. -/
theorem tokens_method_append {object method : String} (hobject : IsWord object.toList)
    (hmethod : IsWord method.toList) (rest : List Char) :
    tokens (object.toList ++ '.' :: (method.toList ++ '(' :: rest)) =
      (tokens rest).map ([.name object, .dot, .name method, .lParen] ++ ·) := by
  rw [tokens_name_append hobject (endsWord_cons (by decide) _),
    tokens_sign .dot rfl (by decide),
    tokens_name_append hmethod (endsWord_cons (by decide) _),
    tokens_sign .lParen rfl (by decide)]
  cases tokens rest <;> rfl

/-- The name of an argument. -/
theorem tokens_keyword_append {keyword : String} (h : IsWord keyword.toList) {rest : List Char}
    (hrest : rest.head? ≠ some '=') :
    tokens (keyword.toList ++ '=' :: rest) = (tokens rest).map ([.name keyword, .assign] ++ ·) := by
  rw [tokens_name_append h (endsWord_cons (by decide) _), tokens_equals hrest]
  cases tokens rest <;> rfl

/-- The last argument of a call, a flag that is set. -/
theorem tokens_flag {keyword : String} (h : IsWord keyword.toList) :
    tokens (keyword.toList ++ "=True)".toList) =
      .ok [.name keyword, .assign, .name "True", .rParen] := by
  have hvalue : tokens ("True".toList ++ [')']) = .ok [.name "True", .rParen] := by
    rw [tokens_name_append (by decide) (endsWord_cons (by decide) _),
      tokens_sign .rParen rfl (by decide)]
    rfl
  change tokens (keyword.toList ++ '=' :: ("True".toList ++ [')'])) = _
  rw [tokens_keyword_append h (by decide), hvalue]
  rfl

/-- The last argument of a call, a flag that is set. -/
theorem readsArguments_flag (keyword : String) (named : List (String × Expr)) :
    ReadsArguments named [.name keyword, .assign, .name "True"]
      ⟨[], named.reverse ++ [(keyword, .literal (.bool true))]⟩ :=
  ReadsArguments.lastKeyword (ReadsAs.name (by decide))

/-! ## Lines -/

/-- Words that a line takes for itself where a dataframe's name could stand at its beginning. -/
def leadingWords : List String := ["import", "del", "not", "True", "False", "None"]

/-- A line that calls a method of a dataframe. -/
theorem lineStatement?_method {line : List Char} {name method : String} {ts : List Token}
    {positional : List Expr} {keywords : List (String × Expr)} (hname : name ∉ leadingWords)
    (htokens : tokens line = .ok (.name name :: .dot :: .name method :: .lParen :: (ts ++ [.rParen])))
    (hopens : Opens ts) (hargs : ReadsArguments [] ts ⟨positional, keywords⟩) :
    lineStatement? line = .ok (some (.expr
      (.call (.member (.name name) method) positional keywords))) := by
  simp only [leadingWords, List.mem_cons, List.not_mem_nil, or_false, not_or] at hname
  have hcall : ReadsAs (.name name :: .dot :: .name method :: .lParen :: (ts ++ [.rParen]))
      (.call (.member (nameExpr name) method) positional keywords) :=
    ReadsAs.methodCall hname.2.2.1 hopens hargs
  rw [nameExpr_eq (by simp [hname])] at hcall
  refine lineStatement?_eq htokens (by simp) (statement_expression ?_ hcall.expression_eq)
  intro t ht
  obtain rfl : Token.name name = t := Option.some.inj ht
  simp [hname]

/-- A line that gives a name to what a method of something makes. -/
theorem lineStatement?_binding {line : List Char} {name object method : String} {ts : List Token}
    {positional : List Expr} {keywords : List (String × Expr)} (hname : name ∉ leadingWords)
    (hobject : object ∉ ["not", "True", "False", "None"])
    (htokens : tokens line = .ok (.name name :: .assign :: .name object :: .dot :: .name method ::
      .lParen :: (ts ++ [.rParen])))
    (hopens : Opens ts) (hargs : ReadsArguments [] ts ⟨positional, keywords⟩) :
    lineStatement? line = .ok (some (.assign (.name name)
      (.call (.member (.name object) method) positional keywords))) := by
  simp only [List.mem_cons, List.not_mem_nil, or_false, not_or] at hobject
  have hcall : ReadsAs (.name object :: .dot :: .name method :: .lParen :: (ts ++ [.rParen]))
      (.call (.member (nameExpr object) method) positional keywords) :=
    ReadsAs.methodCall hobject.1 hopens hargs
  rw [nameExpr_eq (by simp [hobject])] at hcall
  exact lineStatement?_eq htokens (by simp) (statement_assign hname hcall.expression_eq)

/-- The line that reads a file into a dataframe. -/
theorem lineStatement?_readLine {name : String} (hword : IsWord name.toList)
    (hname : name ∉ leadingWords) (path : String) :
    lineStatement? (Chunk.readLine name path).toList = .ok (some (.assign (.name name)
      (.call (.member (.name "pd") "read_csv") [.literal (.str path)] []))) := by
  have htokens : tokens (Chunk.readLine name path).toList = .ok (.name name :: .assign ::
      .name "pd" :: .dot :: .name "read_csv" :: .lParen :: ([.str path] ++ [.rParen])) := by
    have happend : (Chunk.readLine name path).toList = name.toList ++ ' ' :: '=' :: ' ' ::
        ("pd".toList ++ '.' :: ("read_csv".toList ++ '(' ::
          ((pathLiteral path).toList ++ [')']))) := by
      simp only [Chunk.readLine, String.toList_append, List.append_assoc]
      rfl
    rw [happend, tokens_binding_append hword, tokens_method_append (by decide) (by decide),
      tokens_pathLiteral_append, tokens_sign .rParen rfl (by decide)]
    rfl
  exact lineStatement?_binding hname (by decide) htokens ⟨.str path, [], rfl, by simp⟩
    (ReadsArguments.lastPositional (ReadsAs.str path) (by simp))

/-- The line that inserts a column of zeros. -/
theorem lineStatement?_insertLine {name : String} (hword : IsWord name.toList)
    (hname : name ∉ leadingWords) {position : Nat} (hposition : position < 2 ^ 63) (header : String) :
    lineStatement? (name ++ ".insert(" ++ toString position ++ ", " ++ stringLiteral header
      ++ ", 0)").toList = .ok (some (.expr (.call (.member (.name name) "insert")
        [.literal (.int (Int64.ofInt position)), .literal (.str header), .literal (.int 0)] []))) := by
  have htokens : tokens (name ++ ".insert(" ++ toString position ++ ", " ++ stringLiteral header
      ++ ", 0)").toList = .ok (.name name :: .dot :: .name "insert" :: .lParen ::
        ([Token.int (Int64.ofInt position)] ++ Token.comma :: ([Token.str header] ++
          Token.comma :: [Token.int 0]) ++ [Token.rParen])) := by
    have happend : (name ++ ".insert(" ++ toString position ++ ", " ++ stringLiteral header
        ++ ", 0)").toList = name.toList ++ '.' :: ("insert".toList ++ '(' ::
          ((toString position).toList ++ ',' :: ' ' :: ((stringLiteral header).toList ++ ',' :: ' ' ::
            ((toString 0).toList ++ [')'])))) := by
      simp only [String.toList_append, List.append_assoc]
      rfl
    have hends : ∀ c rest, c ∈ [',', ')'] → EndsNumber (c :: rest) := by
      intro c rest hc d hd
      obtain rfl : c = d := Option.some.inj hd
      simp only [List.mem_cons, List.not_mem_nil, or_false] at hc
      rcases hc with rfl | rfl <;> decide
    rw [happend, tokens_method_append hword (by decide),
      tokens_digits_append hposition (hends _ _ (by simp)), tokens_comma,
      tokens_stringLiteral_append, tokens_comma, tokens_digits_append (by simp) (hends _ _ (by simp)),
      tokens_sign .rParen rfl (by decide)]
    rfl
  refine lineStatement?_method hname htokens ⟨_, _, rfl, by simp⟩ ?_
  refine ReadsArguments.cons (ReadsAs.int _) ⟨_, _, rfl, by simp⟩
    (by simp) ?_
  refine ReadsArguments.cons (ReadsAs.str header) ⟨_, _, rfl, by simp⟩
    (by simp) ?_
  exact ReadsArguments.lastPositional (ReadsAs.int 0) (by simp)

/-- The line that renames columns. -/
theorem lineStatement?_renameLine {name : String} (hword : IsWord name.toList)
    (hname : name ∉ leadingWords) {mapping : List (String × String)} (hne : mapping ≠ []) :
    lineStatement? (name ++ ".rename(columns=" ++
      literal (.dict (mapping.map fun entry => (entry.1, .str entry.2))) ++ ", inplace=True)").toList =
      .ok (some (.expr (.call (.member (.name name) "rename") []
        [("columns", .dict (mapping.map fun entry =>
          (.literal (.str entry.1), .literal (.str entry.2)))), ("inplace", .literal (.bool true))]))) := by
  generalize hdict : literal (.dict (mapping.map fun entry => (entry.1, .str entry.2))) = dict
  have hspells : Spells dict.toList (.lBrace :: (entryTokens mapping ++ [.rBrace])) :=
    hdict ▸ spells_dictLiteral mapping
  have hhead : (dict.toList ++ ',' :: ' ' :: ("inplace".toList ++ "=True)".toList)).head? ≠ some '=' := by
    rw [← hdict, literal]
    simp [String.toList_append]
  have htokens : tokens (name ++ ".rename(columns=" ++ dict ++ ", inplace=True)").toList =
      .ok (.name name :: .dot :: .name "rename" :: .lParen ::
        (Token.name "columns" :: Token.assign :: (Token.lBrace :: (entryTokens mapping ++
          [Token.rBrace]) ++ Token.comma :: [Token.name "inplace", Token.assign, Token.name "True"]) ++
            [Token.rParen])) := by
    have happend : (name ++ ".rename(columns=" ++ dict ++ ", inplace=True)").toList =
        name.toList ++ '.' :: ("rename".toList ++ '(' :: ("columns".toList ++ '=' ::
          (dict.toList ++ ',' :: ' ' :: ("inplace".toList ++ "=True)".toList)))) := by
      simp only [String.toList_append, List.append_assoc]
      rfl
    rw [happend, tokens_method_append hword (by decide), tokens_keyword_append (by decide) hhead,
      hspells _ ((endsPiece_cons _ _).mpr (by simp)), tokens_comma, tokens_flag (by decide)]
    simp [Except.map]
  refine lineStatement?_method hname htokens ⟨_, _, rfl, by simp⟩ ?_
  exact ReadsArguments.consKeyword (readsAs_entries hne) ⟨_, _, rfl, by simp⟩ (readsArguments_flag _ _)

/-- The line that drops columns. -/
theorem lineStatement?_dropLine {name : String} (hword : IsWord name.toList)
    (hname : name ∉ leadingWords) (headers : List String) :
    lineStatement? (name ++ ".drop(" ++ textListLiteral headers ++ ", axis=1, inplace=True)").toList =
      .ok (some (.expr (.call (.member (.name name) "drop")
        [.list (headers.map fun header => .literal (.str header))]
        [("axis", .literal (.int 1)), ("inplace", .literal (.bool true))]))) := by
  have htokens : tokens (name ++ ".drop(" ++ textListLiteral headers ++
      ", axis=1, inplace=True)").toList = .ok (.name name :: .dot :: .name "drop" :: .lParen ::
        ((Token.lBracket :: (textTokens headers ++ [Token.rBracket])) ++ Token.comma ::
          (Token.name "axis" :: Token.assign :: ([Token.int 1] ++ Token.comma ::
            [Token.name "inplace", Token.assign, Token.name "True"])) ++ [Token.rParen])) := by
    have happend : (name ++ ".drop(" ++ textListLiteral headers ++
        ", axis=1, inplace=True)").toList = name.toList ++ '.' :: ("drop".toList ++ '(' ::
          ((textListLiteral headers).toList ++ ',' :: ' ' :: ("axis".toList ++ '=' ::
            ((toString 1).toList ++ ',' :: ' ' :: ("inplace".toList ++ "=True)".toList))))) := by
      simp only [String.toList_append, List.append_assoc]
      rfl
    have hends : EndsNumber (',' :: ' ' :: ("inplace".toList ++ "=True)".toList)) := by
      intro d hd
      obtain rfl : ',' = d := Option.some.inj hd
      decide
    rw [happend, tokens_method_append hword (by decide),
      spells_textListLiteral headers _ ((endsPiece_cons _ _).mpr (by simp)), tokens_comma,
      tokens_keyword_append (by decide) (by decide), tokens_digits_append (by simp) hends,
      tokens_comma, tokens_flag (by decide)]
    simp [Except.map]
  refine lineStatement?_method hname htokens ⟨_, _, rfl, by simp⟩ ?_
  refine ReadsArguments.cons (readsAs_texts headers)
    ⟨_, _, rfl, by simp⟩ (by simp) ?_
  exact ReadsArguments.consKeyword (ReadsAs.int 1) ⟨_, _, rfl, by simp⟩ (readsArguments_flag _ _)

/-- The line that copies a dataframe. -/
theorem lineStatement?_copyLine {copy name : String} (hcopyWord : IsWord copy.toList)
    (hcopy : copy ∉ leadingWords) (hword : IsWord name.toList)
    (hname : name ∉ ["not", "True", "False", "None"]) :
    lineStatement? (copy ++ " = " ++ name ++ ".copy(deep=True)").toList = .ok (some (.assign
      (.name copy) (.call (.member (.name name) "copy") [] [("deep", .literal (.bool true))]))) := by
  have htokens : tokens (copy ++ " = " ++ name ++ ".copy(deep=True)").toList = .ok (.name copy ::
      .assign :: .name name :: .dot :: .name "copy" :: .lParen ::
        ([.name "deep", .assign, .name "True"] ++ [.rParen])) := by
    have happend : (copy ++ " = " ++ name ++ ".copy(deep=True)").toList =
        copy.toList ++ ' ' :: '=' :: ' ' :: (name.toList ++ '.' :: ("copy".toList ++ '(' ::
          ("deep".toList ++ "=True)".toList))) := by
      simp only [String.toList_append, List.append_assoc]
      rfl
    rw [happend, tokens_binding_append hcopyWord, tokens_method_append hword (by decide),
      tokens_flag (by decide)]
    rfl
  exact lineStatement?_binding hcopy hname htokens ⟨_, _, rfl, by simp⟩
    (readsArguments_flag _ [])

end TableScript.Script
