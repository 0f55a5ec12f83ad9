import TableScript.Proofs.Numerals
import TableScript.Document.Json

/-!
# JSON texts tell trees apart

Two trees with the same compact text are the same tree, but for one thing: a floating point number
that is not finite is written as nothing is (`compact_eq_iff`). A text begins with a character that
shows what kind of tree it is (`Kind`); a number goes on as long as characters of numbers do, a
quoted text is read back (`readString_escaped`), and the parts of lists and objects are told apart
by induction over the tree (`told`).
-/

namespace TableScript.Document.Json

open Decimal (isNumberChar NumberText Marked)

/-! ## Quoted texts -/

/-- A digit of a hexadecimal number is read back. -/
theorem hexDigit?_digitChar : ∀ n : Fin 16, hexDigit? (Nat.digitChar n) = some n.val := by decide

/-- An escape by code units stands for the character with that code point. -/
theorem readUnicodeEscape_hex2 {c : Char} (h : c.toNat < 0x20) (rest : List Char) :
    readUnicodeEscape ('0' :: '0' :: (hex2 c.toNat ++ rest)) = some (c, rest) := by
  have hzero : hexDigit? '0' = some 0 := by decide
  have hhigh := hexDigit?_digitChar ⟨c.toNat / 16, by omega⟩
  have hlow := hexDigit?_digitChar ⟨c.toNat % 16, by omega⟩
  have hvalue : ((0 * 16 + 0) * 16 + c.toNat / 16) * 16 + c.toNat % 16 = c.toNat := by omega
  have hread : readHex4 ('0' :: '0' :: (hex2 c.toNat ++ rest)) = some (c.toNat, rest) := by
    rw [hex2, List.cons_append, List.cons_append, List.nil_append, readHex4, hzero, hhigh, hlow]
    exact congrArg (fun n => some (n, rest)) hvalue
  have hplain : ¬ (0xD800 ≤ c.toNat && c.toNat < 0xDC00) = true := by
    simp only [Bool.and_eq_true, decide_eq_true_eq]
    omega
  have hpaired : ¬ (0xDC00 ≤ c.toNat && c.toNat < 0xE000) = true := by
    simp only [Bool.and_eq_true, decide_eq_true_eq]
    omega
  rw [readUnicodeEscape, hread]
  change (if _ then _ else _) = _
  rw [if_neg hplain, if_neg hpaired, Char.ofNat_toNat]
  rfl

/-- A character of a text, escaped if need be, is read back. -/
theorem readString_escapeChar (c : Char) (steps : ℕ) (rest : List Char) :
    readString (steps + 1) (escapeChar c ++ rest) =
      (readString steps rest).map fun p => (c :: p.1, p.2) := by
  rw [Option.map_eq_bind]
  unfold escapeChar
  -- The characters that have an escape of one letter.
  iterate 7
    split
    case isTrue h =>
      subst h
      rfl
  rename_i hquote hbackslash _ _ _ _ _
  split
  case isTrue hlow =>
    rw [List.cons_append, List.cons_append, List.cons_append, List.cons_append, readString,
      if_neg (by decide), if_neg (by decide), if_pos rfl]
    dsimp only
    rw [readUnicodeEscape_hex2 hlow rest]
    rfl
  case isFalse hlow =>
    rw [List.singleton_append, readString.eq_def]
    dsimp only
    rw [if_neg hquote, if_neg hlow, if_neg hbackslash]
    rfl

/-- The inside of quotes is read as the text that was put there. -/
theorem readString_escaped (cs rest : List Char) {steps : ℕ} (h : cs.length < steps) :
    readString steps (cs.flatMap escapeChar ++ '"' :: rest) = some (cs, rest) := by
  induction cs generalizing steps with
  | nil =>
    obtain ⟨steps, rfl⟩ := Nat.exists_eq_succ_of_ne_zero (Nat.ne_of_gt h)
    rfl
  | cons c cs ih =>
    obtain ⟨steps, rfl⟩ :=
      Nat.exists_eq_succ_of_ne_zero (Nat.ne_of_gt (Nat.lt_of_le_of_lt (Nat.zero_le _) h))
    rw [List.flatMap_cons, List.append_assoc, readString_escapeChar, ih (Nat.lt_of_succ_lt_succ h)]
    rfl

/-- Quoted texts are told apart whatever follows them. -/
theorem quoted_unique {a b : String} {s t : List Char}
    (h : (quoted a).toList ++ s = (quoted b).toList ++ t) : a = b ∧ s = t := by
  unfold quoted at h
  simp only [String.toList_ofList, List.cons_append, List.append_assoc, List.nil_append,
    List.cons.injEq, true_and] at h
  have hleft := readString_escaped a.toList s
    (Nat.lt_succ_of_le (Nat.le_max_left _ b.toList.length))
  have hright := readString_escaped b.toList t
    (Nat.lt_succ_of_le (Nat.le_max_right a.toList.length _))
  rw [h, hright] at hleft
  obtain ⟨hbody, hrest⟩ := Prod.mk.inj (Option.some.inj hleft)
  exact ⟨(String.toList_injective hbody).symm, hrest.symm⟩

/-! ## Numbers -/

/-- What follows a number and ends it. -/
def EndsNumber (s : List Char) : Prop := ∀ c ∈ s.head?, isNumberChar c = false

/-- The characters of a number go up to where it ends. -/
theorem takeWhile_number {a : String} {s : List Char} (ha : NumberText a) (hs : EndsNumber s) :
    (a.toList ++ s).takeWhile isNumberChar = a.toList ∧
      (a.toList ++ s).dropWhile isNumberChar = s := by
  rw [List.takeWhile_append_of_pos ha, List.dropWhile_append_of_pos ha]
  cases s with
  | nil => exact ⟨List.append_nil _, rfl⟩
  | cons c s =>
    have hc := hs c rfl
    simp [hc]

/-- A number in front of a text is told by the text, and so is what follows it. -/
theorem number_unique {a b : String} {s t : List Char} (ha : NumberText a) (hb : NumberText b)
    (hs : EndsNumber s) (ht : EndsNumber t) (h : a.toList ++ s = b.toList ++ t) :
    a = b ∧ s = t := by
  obtain ⟨hleft, hleft'⟩ := takeWhile_number ha hs
  obtain ⟨hright, hright'⟩ := takeWhile_number hb ht
  rw [h] at hleft hleft'
  exact ⟨String.toList_injective (hleft.symm.trans hright), hleft'.symm.trans hright'⟩

/-- Whole numbers have different texts. -/
theorem intText_injective {m n : ℤ} (h : toString m = toString n) : m = n := by
  have hread := Decimal.readInt?_toString m
  rw [h, Decimal.readInt?_toString] at hread
  exact (Option.some.inj hread).symm

/-- Finite floats have different texts. -/
theorem floatText_injective {x y : Float} (hx : x.isFinite = true) (hy : y.isFinite = true)
    (h : floatFormat.text x = floatFormat.text y) : x = y := by
  have hread := Decimal.readFloat?_text floatFormat hx
  rw [h, Decimal.readFloat?_text floatFormat hy] at hread
  exact (Option.some.inj hread).symm

/-- A floating point number is not written as a whole number is. -/
theorem intText_ne_floatText (n : ℤ) {x : Float} (hx : x.isFinite = true) :
    toString n ≠ floatFormat.text x := by
  intro h
  have hread := Decimal.readInt?_toString n
  rw [h, Decimal.readInt?_marked (Decimal.marked_text rfl hx)] at hread
  cases hread

/-- What is no finite number is written as nothing is. -/
theorem floatText_of_not_finite {x : Float} (hx : x.isFinite = false) :
    floatFormat.text x = "null" := by
  unfold Decimal.FloatFormat.text
  cases hmagnitude : Decimal.magnitude x with
  | nan => rfl
  | infinite => exact ite_self _
  | finite m e =>
    rw [Decimal.isFinite_iff.mpr ⟨m, e, hmagnitude⟩] at hx
    cases hx

/-! ## Kinds -/

mutual

/-- The tree without floating point numbers that are not finite: they are missing. -/
def blurred : Json → Json
  | float x => if x.isFinite then float x else null
  | list items => list (blurredItems items)
  | object entries => object (blurredEntries entries)
  | other => other

/-- Items without numbers that are not finite. -/
def blurredItems : List Json → List Json
  | [] => []
  | v :: rest => blurred v :: blurredItems rest

/-- Entries without numbers that are not finite. -/
def blurredEntries : List (String × Json) → List (String × Json)
  | [] => []
  | (key, v) :: rest => (key, blurred v) :: blurredEntries rest

end

/-- What the first character of a text shows. -/
inductive Kind where
  | null
  | bool
  | number
  | text
  | list
  | object
deriving DecidableEq

/-- The kind of tree whose text begins with the character. -/
def kindOf (c : Char) : Option Kind :=
  if c = 'n' then some .null
  else if c = 't' || c = 'f' then some .bool
  else if c = '"' then some .text
  else if c = '[' then some .list
  else if c = '\x7b' then some .object
  else if isNumberChar c then some .number
  else none

/-- The kind of a tree. -/
def kind : Json → Kind
  | null => .null
  | bool _ => .bool
  | int _ => .number
  | float x => if x.isFinite then .number else .null
  | str _ => .text
  | list _ => .list
  | object _ => .object

/-- A number is told by its first character. -/
theorem kindOf_number {c : Char} (h : isNumberChar c = true) : kindOf c = some .number := by
  have hne : ∀ d : Char, isNumberChar d = false → c ≠ d := by
    intro d hd hcd
    rw [hcd, hd] at h
    cases h
  simp [kindOf, h, hne 'n' (by decide), hne 't' (by decide), hne 'f' (by decide),
    hne '"' (by decide), hne '[' (by decide), hne '\x7b' (by decide)]

/-- The text of a number begins with a character of numbers. -/
theorem head_number {a : String} (ha : NumberText a) (hne : a.toList ≠ []) :
    ∃ c cs, a.toList = c :: cs ∧ kindOf c = some .number := by
  obtain ⟨c, cs, hcons⟩ := List.exists_cons_of_ne_nil hne
  exact ⟨c, cs, hcons, kindOf_number (ha c (by rw [hcons]; exact List.mem_cons_self))⟩

/-! ## Parts with commas between them -/

section

variable {α β : Type} {text : α → List Char} {norm : α → β} {close : Char}

/-- Texts with commas between them. -/
def joined (text : α → List Char) : List α → List Char
  | [] => []
  | a :: rest => text a ++ rest.flatMap fun b => ',' :: text b

/-- The text of `a` is told apart from all others, whatever follows them. -/
def Unique (text : α → List Char) (norm : α → β) (a : α) : Prop :=
  ∀ b s t, EndsNumber s → EndsNumber t → text a ++ s = text b ++ t → norm a = norm b ∧ s = t

/-- A number ends before any other character. -/
theorem endsNumber_cons {c : Char} (h : isNumberChar c = false) (s : List Char) :
    EndsNumber (c :: s) := by
  intro d hd
  cases hd
  exact h

/-- After a part comes a comma or the closing bracket. -/
theorem endsNumber_rest (hclose : isNumberChar close = false) (bs : List α) (s : List Char) :
    EndsNumber ((bs.flatMap fun b => ',' :: text b) ++ close :: s) := by
  cases bs with
  | nil => exact endsNumber_cons hclose s
  | cons b bs => exact endsNumber_cons (by decide) _

/-- The items after the first one are told by the text, up to the closing character, and so is what follows.
-/
theorem rest_unique (hclose : isNumberChar close = false) (hcomma : close ≠ ',') {as : List α}
    (h : ∀ a ∈ as, Unique text norm a) {bs : List α} {s t : List Char}
    (heq : (as.flatMap fun a => ',' :: text a) ++ close :: s =
      (bs.flatMap fun b => ',' :: text b) ++ close :: t) : as.map norm = bs.map norm ∧ s = t := by
  induction as generalizing bs with
  | nil =>
    cases bs with
    | nil => exact ⟨rfl, (List.cons.inj heq).2⟩
    | cons b bs => exact absurd (List.cons.inj heq).1 hcomma
  | cons a as ih =>
    cases bs with
    | nil => exact absurd (List.cons.inj heq).1.symm hcomma
    | cons b bs =>
      rw [List.flatMap_cons, List.flatMap_cons, List.cons_append, List.cons_append,
        List.cons_append, List.cons_append, List.cons.injEq, List.append_assoc,
        List.append_assoc] at heq
      obtain ⟨hnorm, hrest⟩ := h a List.mem_cons_self b _ _ (endsNumber_rest hclose as s)
        (endsNumber_rest hclose bs t) heq.2
      obtain ⟨hnorms, htail⟩ := ih (fun a' ha' => h a' (List.mem_cons_of_mem a ha')) hrest
      exact ⟨congrArg₂ List.cons hnorm hnorms, htail⟩

/-- Parts between brackets are told apart if none of them begins as the closing bracket does. -/
theorem joined_unique (hclose : isNumberChar close = false) (hcomma : close ≠ ',')
    (hhead : ∀ a, ∃ c cs, text a = c :: cs ∧ c ≠ close) {as : List α}
    (h : ∀ a ∈ as, Unique text norm a) {bs : List α} {s t : List Char}
    (heq : joined text as ++ close :: s = joined text bs ++ close :: t) :
    as.map norm = bs.map norm ∧ s = t := by
  cases as with
  | nil =>
    cases bs with
    | nil => exact ⟨rfl, (List.cons.inj heq).2⟩
    | cons b bs =>
      obtain ⟨c, cs, hcons, hne⟩ := hhead b
      rw [joined, joined, hcons] at heq
      exact absurd (List.cons.inj heq).1.symm hne
  | cons a as =>
    cases bs with
    | nil =>
      obtain ⟨c, cs, hcons, hne⟩ := hhead a
      rw [joined, joined, hcons] at heq
      exact absurd (List.cons.inj heq).1 hne
    | cons b bs =>
      rw [joined, joined, List.append_assoc, List.append_assoc] at heq
      obtain ⟨hnorm, hrest⟩ := h a List.mem_cons_self b _ _ (endsNumber_rest hclose as s)
        (endsNumber_rest hclose bs t) heq
      obtain ⟨hnorms, htail⟩ := rest_unique hclose hcomma
        (fun a' ha' => h a' (List.mem_cons_of_mem a ha')) hrest
      exact ⟨congrArg₂ List.cons hnorm hnorms, htail⟩

end

/-! ## Trees -/

/-- Texts with commas between them are the first one, and then each with a comma before it. -/
theorem toList_intercalate (a : String) (rest : List String) :
    (",".intercalate (a :: rest)).toList = a.toList ++ rest.flatMap fun b => ',' :: b.toList := by
  induction rest generalizing a with
  | nil => rw [String.intercalate_singleton, List.flatMap_nil, List.append_nil]
  | cons b rest ih =>
    rw [String.intercalate_cons_cons, String.toList_append, String.toList_append, ih,
      List.flatMap_cons, List.append_assoc]
    rfl

/-- The text of an entry. -/
def entryText (entry : String × Json) : List Char :=
  (quoted entry.1).toList ++ ':' :: (compact entry.2).toList

/-- An entry is its key in quotes, a colon and its value. -/
theorem entryText_eq (entry : String × Json) : entryText entry =
    '"' :: (entry.1.toList.flatMap escapeChar ++ ['"'] ++ ':' :: (compact entry.2).toList) := by
  rw [entryText, quoted, String.toList_ofList]
  rfl

/-- The items of a list are written one by one. -/
theorem compactItems_eq (items : List Json) : compactItems items = items.map compact := by
  induction items with
  | nil => rfl
  | cons v items ih => rw [compactItems, ih, List.map_cons]

/-- So are the entries of an object. -/
theorem compactEntries_eq (entries : List (String × Json)) :
    compactEntries entries = entries.map fun entry => quoted entry.1 ++ ":" ++ compact entry.2 := by
  induction entries with
  | nil => rfl
  | cons entry entries ih => rw [compactEntries, ih, List.map_cons]

/-- A list is written in brackets. -/
theorem toList_compact_list (items : List Json) :
    (compact (list items)).toList =
      '[' :: (joined (fun v => (compact v).toList) items ++ [']']) := by
  rw [compact, String.toList_append, String.toList_append, compactItems_eq]
  cases items with
  | nil => rfl
  | cons v items =>
    rw [List.map_cons, toList_intercalate, List.flatMap_map]
    rfl

/-- An object is written in braces. -/
theorem toList_compact_object (entries : List (String × Json)) :
    (compact (object entries)).toList = '\x7b' :: (joined entryText entries ++ ['\x7d']) := by
  have hentry : ∀ entry : String × Json,
      (quoted entry.1 ++ ":" ++ compact entry.2).toList = entryText entry := by
    intro entry
    rw [String.toList_append, String.toList_append, List.append_assoc]
    rfl
  rw [compact, String.toList_append, String.toList_append, compactEntries_eq]
  cases entries with
  | nil => rfl
  | cons entry entries =>
    rw [List.map_cons, toList_intercalate, List.flatMap_map, hentry]
    simp only [hentry]
    rfl

/-- The text of a tree begins with a character that shows its kind. -/
theorem head_compact (a : Json) :
    ∃ c cs, (compact a).toList = c :: cs ∧ kindOf c = some a.kind := by
  cases a with
  | null => exact ⟨'n', ['u', 'l', 'l'], rfl, rfl⟩
  | bool b =>
    cases b with
    | true => exact ⟨'t', ['r', 'u', 'e'], rfl, rfl⟩
    | false => exact ⟨'f', ['a', 'l', 's', 'e'], rfl, rfl⟩
  | int n =>
    refine head_number (Decimal.numberText_intText n) fun hnil => ?_
    have hread := Decimal.readInt?_toString n
    rw [show (toString n).toList = [] from hnil] at hread
    cases hread
  | float x =>
    cases hx : x.isFinite with
    | true =>
      have hkind : (float x).kind = .number := if_pos hx
      rw [hkind]
      refine head_number (Decimal.numberText_text floatFormat hx) fun hnil => ?_
      have hread := Decimal.readFloat?_text floatFormat hx
      rw [show (floatFormat.text x).toList = [] from hnil] at hread
      cases hread
    | false =>
      have hkind : (float x).kind = .null := if_neg (by simp [hx])
      rw [hkind, compact, floatText_of_not_finite hx]
      exact ⟨'n', ['u', 'l', 'l'], rfl, rfl⟩
  | str s => exact ⟨'"', _, String.toList_ofList, rfl⟩
  | list items => exact ⟨'[', _, toList_compact_list items, rfl⟩
  | object entries => exact ⟨'\x7b', _, toList_compact_object entries, rfl⟩

/-- A finite float is written as a number. -/
theorem kind_float_finite {x : Float} (hx : x.isFinite = true) : (float x).kind = .number :=
  if_pos hx

/-- What is written as null looks the same as null. -/
theorem of_kind_null {a : Json} (h : a.kind = .null) : compact a = "null" ∧ blurred a = null := by
  cases a with
  | null => exact ⟨rfl, rfl⟩
  | float x =>
    cases hx : x.isFinite with
    | true =>
      rw [kind_float_finite hx] at h
      cases h
    | false => exact ⟨floatText_of_not_finite hx, by rw [blurred, hx]; rfl⟩
  | _ => cases h

/-- What is written as a number is a whole number or a finite float. -/
theorem of_kind_number {a : Json} (h : a.kind = .number) :
    (∃ n, a = int n) ∨ ∃ x : Float, x.isFinite = true ∧ a = float x := by
  cases a with
  | int n => exact .inl ⟨n, rfl⟩
  | float x =>
    cases hx : x.isFinite with
    | true => exact .inr ⟨x, hx, rfl⟩
    | false =>
      rw [kind, hx] at h
      cases h
  | _ => cases h

/-- What is written as a truth value is one. -/
theorem of_kind_bool {a : Json} (h : a.kind = .bool) : ∃ b, a = bool b := by
  cases a with
  | bool b => exact ⟨b, rfl⟩
  | float x =>
    rw [kind] at h
    split at h <;> cases h
  | _ => cases h

/-- What is written as a text is one. -/
theorem of_kind_text {a : Json} (h : a.kind = .text) : ∃ s, a = str s := by
  cases a with
  | str s => exact ⟨s, rfl⟩
  | float x =>
    rw [kind] at h
    split at h <;> cases h
  | _ => cases h

/-- What is written as a list is one. -/
theorem of_kind_list {a : Json} (h : a.kind = .list) : ∃ items, a = list items := by
  cases a with
  | list items => exact ⟨items, rfl⟩
  | float x =>
    rw [kind] at h
    split at h <;> cases h
  | _ => cases h

/-- What is written as an object is one. -/
theorem of_kind_object {a : Json} (h : a.kind = .object) : ∃ entries, a = object entries := by
  cases a with
  | object entries => exact ⟨entries, rfl⟩
  | float x =>
    rw [kind] at h
    split at h <;> cases h
  | _ => cases h

/-- Equal texts are of trees of one kind. -/
theorem kind_eq {a b : Json} {s t : List Char}
    (h : (compact a).toList ++ s = (compact b).toList ++ t) : a.kind = b.kind := by
  obtain ⟨c, cs, ha, hca⟩ := head_compact a
  obtain ⟨d, ds, hb, hdb⟩ := head_compact b
  rw [ha, hb, List.cons_append, List.cons_append] at h
  rw [(List.cons.inj h).1, hdb] at hca
  exact (Option.some.inj hca).symm

/-- The items of a list look as each of them does. -/
theorem blurredItems_eq (items : List Json) : blurredItems items = items.map blurred := by
  induction items with
  | nil => rfl
  | cons v items ih => rw [blurredItems, ih, List.map_cons]

/-- So do the entries of an object. -/
theorem blurredEntries_eq (entries : List (String × Json)) :
    blurredEntries entries = entries.map fun entry => (entry.1, blurred entry.2) := by
  induction entries with
  | nil => rfl
  | cons entry entries ih => rw [blurredEntries, ih, List.map_cons]

/-- Texts of numbers are told apart, whole or not. -/
theorem compact_unique_number {a b : Json} (ha : a.kind = .number) (hb : b.kind = .number)
    {s t : List Char} (hs : EndsNumber s) (ht : EndsNumber t)
    (h : (compact a).toList ++ s = (compact b).toList ++ t) : a = b ∧ s = t := by
  rcases of_kind_number ha with ⟨m, rfl⟩ | ⟨x, hx, rfl⟩
  · rcases of_kind_number hb with ⟨n, rfl⟩ | ⟨y, hy, rfl⟩
    · obtain ⟨htext, hrest⟩ :=
        number_unique (Decimal.numberText_intText m) (Decimal.numberText_intText n) hs ht h
      exact ⟨congrArg int (intText_injective htext), hrest⟩
    · obtain ⟨htext, -⟩ :=
        number_unique (Decimal.numberText_intText m) (Decimal.numberText_text floatFormat hy)
          hs ht h
      exact absurd htext (intText_ne_floatText m hy)
  · rcases of_kind_number hb with ⟨n, rfl⟩ | ⟨y, hy, rfl⟩
    · obtain ⟨htext, -⟩ :=
        number_unique (Decimal.numberText_text floatFormat hx) (Decimal.numberText_intText n)
          hs ht h
      exact absurd htext.symm (intText_ne_floatText n hx)
    · obtain ⟨htext, hrest⟩ := number_unique (Decimal.numberText_text floatFormat hx)
        (Decimal.numberText_text floatFormat hy) hs ht h
      exact ⟨congrArg float (floatText_injective hx hy htext), hrest⟩

/-- The tree is told apart from all others by its text, but for numbers that are not finite. -/
def Told (a : Json) : Prop := Unique (fun v => (compact v).toList) blurred a

/-- What is written as null is told by its text, as far as it shows. -/
theorem told_of_kind_null {a : Json} (ha : a.kind = .null) : Told a := by
  intro b s t hs ht h
  dsimp only at h
  obtain ⟨htext, hblurred⟩ := of_kind_null ha
  obtain ⟨htext', hblurred'⟩ := of_kind_null ((kind_eq h).symm.trans ha)
  rw [htext, htext'] at h
  exact ⟨hblurred.trans hblurred'.symm, List.append_cancel_left h⟩

/-- A number is told by its text. -/
theorem told_of_kind_number {a : Json} (ha : a.kind = .number) : Told a := by
  intro b s t hs ht h
  obtain ⟨rfl, hrest⟩ := compact_unique_number ha ((kind_eq h).symm.trans ha) hs ht h
  exact ⟨rfl, hrest⟩

/-- A truth value is told by its text. -/
theorem told_bool (a : Bool) : Told (bool a) := by
  intro b s t hs ht h
  obtain ⟨b, rfl⟩ := of_kind_bool (kind_eq h).symm
  cases a <;> cases b
  · exact ⟨rfl, List.append_cancel_left h⟩
  · exact absurd (List.cons.inj h).1 (by decide)
  · exact absurd (List.cons.inj h).1 (by decide)
  · exact ⟨rfl, List.append_cancel_left h⟩

/-- A float is told by its text, as far as it shows. -/
theorem told_float (x : Float) : Told (float x) := by
  cases hx : x.isFinite with
  | true => exact told_of_kind_number (if_pos hx)
  | false => exact told_of_kind_null (if_neg (by simp [hx]))

/-- A text is told by its own text. -/
theorem told_str (a : String) : Told (str a) := by
  intro b s t hs ht h
  obtain ⟨b, rfl⟩ := of_kind_text (kind_eq h).symm
  obtain ⟨rfl, hrest⟩ := quoted_unique h
  exact ⟨rfl, hrest⟩

/-- A list is told by its text if its items are. -/
theorem told_list {items : List Json} (hitems : ∀ v ∈ items, Told v) : Told (list items) := by
  intro b s t hs ht h
  dsimp only at h
  obtain ⟨others, rfl⟩ := of_kind_list (kind_eq h).symm
  rw [toList_compact_list, toList_compact_list, List.cons_append, List.cons_append, List.cons.injEq,
    List.append_assoc, List.append_assoc] at h
  have hhead : ∀ v : Json, ∃ c cs, (compact v).toList = c :: cs ∧ c ≠ ']' := by
    intro v
    obtain ⟨c, cs, hcons, hkindOf⟩ := head_compact v
    refine ⟨c, cs, hcons, ?_⟩
    rintro rfl
    cases hkindOf
  obtain ⟨hblurred, hrest⟩ := joined_unique (by decide) (by decide) hhead hitems h.2
  rw [blurred, blurred, blurredItems_eq, blurredItems_eq, hblurred]
  exact ⟨rfl, hrest⟩

/-- An object is told by its text if the values of its entries are. -/
theorem told_object {entries : List (String × Json)} (hentries : ∀ entry ∈ entries, Told entry.2) :
    Told (object entries) := by
  intro b s t hs ht h
  dsimp only at h
  obtain ⟨others, rfl⟩ := of_kind_object (kind_eq h).symm
  rw [toList_compact_object, toList_compact_object, List.cons_append, List.cons_append,
    List.cons.injEq, List.append_assoc, List.append_assoc] at h
  have hhead : ∀ entry, ∃ c cs, entryText entry = c :: cs ∧ c ≠ '\x7d' := fun entry =>
    ⟨'"', _, entryText_eq entry, by decide⟩
  have hentry : ∀ entry ∈ entries,
      Unique entryText (fun entry => (entry.1, blurred entry.2)) entry := by
    intro entry hentry other s t hs ht heq
    rw [entryText, entryText, List.append_assoc, List.append_assoc] at heq
    obtain ⟨hkey, hvalue⟩ := quoted_unique heq
    obtain ⟨hblurred, hrest⟩ := hentries entry hentry other.2 s t hs ht (List.cons.inj hvalue).2
    exact ⟨Prod.ext hkey hblurred, hrest⟩
  obtain ⟨hblurred, hrest⟩ := joined_unique (by decide) (by decide) hhead hentry h.2
  rw [blurred, blurred, blurredEntries_eq, blurredEntries_eq, hblurred]
  exact ⟨rfl, hrest⟩

mutual

/-- Every tree is told apart by its text. -/
theorem told : (a : Json) → Told a
  | null => told_of_kind_null rfl
  | bool b => told_bool b
  | int _ => told_of_kind_number rfl
  | float x => told_float x
  | str s => told_str s
  | list items => told_list (told_items items)
  | object entries => told_object (told_entries entries)

/-- All items of a list are told by their texts. -/
theorem told_items : (items : List Json) → ∀ v ∈ items, Told v
  | [] => List.forall_mem_nil _
  | v :: rest => List.forall_mem_cons.mpr ⟨told v, told_items rest⟩

/-- So are the values of all entries. -/
theorem told_entries : (entries : List (String × Json)) → ∀ entry ∈ entries, Told entry.2
  | [] => List.forall_mem_nil _
  | (_, v) :: rest => List.forall_mem_cons.mpr ⟨told v, told_entries rest⟩

end

mutual

/-- Numbers that are not finite leave no trace in the text. -/
theorem compact_blurred : (a : Json) → compact (blurred a) = compact a
  | null => rfl
  | bool _ => rfl
  | int _ => rfl
  | float x => by
    cases hx : x.isFinite with
    | true => rw [blurred, if_pos hx]
    | false =>
      rw [blurred, if_neg (by simp [hx])]
      exact (floatText_of_not_finite hx).symm
  | str _ => rfl
  | list items => by rw [blurred, compact, compact, compactItems_blurred items]
  | object entries => by rw [blurred, compact, compact, compactEntries_blurred entries]

/-- Items are written as what they look like. -/
theorem compactItems_blurred :
    (items : List Json) → compactItems (blurredItems items) = compactItems items
  | [] => rfl
  | v :: rest => by
    rw [blurredItems, compactItems, compactItems, compact_blurred v, compactItems_blurred rest]

/-- So are entries. -/
theorem compactEntries_blurred : (entries : List (String × Json)) →
    compactEntries (blurredEntries entries) = compactEntries entries
  | [] => rfl
  | (key, v) :: rest => by
    rw [blurredEntries, compactEntries, compactEntries, compact_blurred v,
      compactEntries_blurred rest]

end

/-- Two trees have one text exactly if they are the same but for numbers that are not finite, which
are taken for missing. -/
theorem compact_eq_iff {a b : Json} : compact a = compact b ↔ blurred a = blurred b := by
  constructor
  · intro h
    have hends : EndsNumber [] := fun _ hc => nomatch hc
    have htexts : (compact a).toList ++ [] = (compact b).toList ++ [] := by rw [h]
    exact (told a b [] [] hends hends htexts).1
  · intro h
    rw [← compact_blurred a, h, compact_blurred]

end TableScript.Document.Json
