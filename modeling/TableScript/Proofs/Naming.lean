import TableScript.Proofs.Keyed
import TableScript.Proofs.Lexemes
import TableScript.Workbook
import Mathlib.Data.List.Perm.Subperm

/-!
# Names of dataframes

A fresh name is really free, and it is the first of its candidates that is (`freshName_spec`): the base and
as many numbered candidates as there are names cannot all be taken.

The names that steps make by themselves are *plain*: each is one name token, and none of the words that a
script takes for itself. So are the names made from any text (`plain_usableName`), the fresh names made
from plain ones (`plain_freshName`), the names of copies and those of dataframes that had no name.
-/

namespace TableScript

open Script

/-! ## Plain names -/

/-- The name can stand for a dataframe anywhere in a script: it is read as one name token, and as none
of those that mean something else there. -/
structure Plain (name : String) : Prop where
  token : tokens name.toList = .ok [.name name]
  free : name ∉ ["import", "del", "not", "True", "False", "None", "pd"]

/-- A plain name is a word. -/
theorem Plain.isWord {name : String} (h : Plain name) : IsWord name.toList :=
  (tokens_eq_name_iff name).mp h.token

/-- No dataframe of a plain name hides the library. -/
theorem Plain.ne_library {name : String} (h : Plain name) : name ≠ "pd" := by
  rintro rfl
  exact h.free (by decide)

/-- A plain name can stand after an equals sign. -/
theorem Plain.not_mem_values {name : String} (h : Plain name) :
    name ∉ ["not", "True", "False", "None"] := by
  have hsub : ∀ n ∈ ["not", "True", "False", "None"],
      n ∈ ["import", "del", "not", "True", "False", "None", "pd"] := by decide
  exact fun hmem => h.free (hsub name hmem)

/-- A word that is not reserved is a plain name. -/
theorem plain_of_isWord {name : String} (h : IsWord name.toList) (hfree : name ∉ reservedNames) :
    Plain name := by
  refine ⟨tokens_word h, fun hmem => hfree ?_⟩
  have hsub : ∀ n ∈ ["import", "del", "not", "True", "False", "None", "pd"], n ∈ reservedNames := by
    decide
  exact hsub name hmem

instance (name : String) : Decidable (Plain name) :=
  decidable_of_iff
    (IsWord name.toList ∧ name ∉ ["import", "del", "not", "True", "False", "None", "pd"])
    ⟨fun h => ⟨tokens_word h.1, h.2⟩, fun h => ⟨h.isWord, h.free⟩⟩

/-- No word of the language has an underscore in it. -/
theorem not_mem_reservedNames_of_underscore {name : String} (h : '_' ∈ name.toList) :
    name ∉ reservedNames := by
  have hnone : ∀ n ∈ reservedNames, '_' ∉ n.toList := by decide
  exact fun hmem => hnone name hmem h

/-! ## Characters of names -/

/-- Letters and digits of this kind are ASCII. -/
theorem isAscii_of_isAlphanum {c : Char} (h : c.isAlphanum = true) : Text.isAscii c = true := by
  have hlast : c.val ≤ 'z'.val := by
    rcases (Bool.or_eq_true _ _).mp h with hletter | hdigit
    · rcases (Bool.or_eq_true _ _).mp hletter with hupper | hlower
      · exact UInt32.le_trans (of_decide_eq_true hupper).2 (by decide)
      · exact of_decide_eq_true ((Bool.and_eq_true _ _).mp hlower).2
    · exact UInt32.le_trans (of_decide_eq_true ((Bool.and_eq_true _ _).mp hdigit).2) (by decide)
  have hlt : c.toNat < 128 := Nat.lt_of_le_of_lt (UInt32.le_iff_toNat_le.mp hlast) (by decide)
  simpa [Text.isAscii] using hlt

/-- They can stand in a name. -/
theorem isNameChar_of_isAlphanum {c : Char} (h : c.isAlphanum = true) : isNameChar c = true := by
  rw [isNameChar, Text.isAlphanumeric, if_pos (isAscii_of_isAlphanum h), h, Bool.true_or]

/-- Those that are no digits can begin one. -/
theorem isNameStart_of_isAlphanum {c : Char} (h : c.isAlphanum = true) (hdigit : c.isDigit = false) :
    isNameStart c = true := by
  rw [Char.isAlphanum, hdigit, Bool.or_false] at h
  have hascii : Text.isAscii c = true := isAscii_of_isAlphanum (by rw [Char.isAlphanum, h, Bool.true_or])
  rw [isNameStart, Text.isAlphabetic, if_pos hascii, h, Bool.true_or]

/-- The characters of a number can follow in a name. -/
theorem isNameChar_of_mem_toString {n : Nat} {c : Char} (h : c ∈ (toString n).toList) :
    isNameChar c = true := by
  rw [Nat.toString_eq_repr, Nat.toList_repr] at h
  have hdigit : c.isDigit = true := Nat.isDigit_of_mem_toDigits (by decide) (by decide) h
  exact isNameChar_of_isAlphanum (by rw [Char.isAlphanum, hdigit, Bool.or_true])

/-- A word with an underscore and anything of a name after it. -/
theorem isWord_suffix {base : String} (h : IsWord base.toList) (suffix : List Char)
    (hsuffix : ∀ c ∈ suffix, isNameChar c = true) :
    IsWord (base ++ "_" ++ String.ofList suffix).toList := by
  rw [String.toList_append, String.toList_append, List.append_assoc]
  refine h.append fun c hc => ?_
  rcases List.mem_append.mp hc with hc | hc
  · obtain rfl : c = '_' := by simpa using hc
    decide
  · exact hsuffix c (by simpa using hc)

/-- A name that a dataframe has got after its own name was taken. -/
theorem plain_numbered {base : String} (h : IsWord base.toList) (k : Nat) :
    Plain (base ++ "_" ++ toString k) := by
  refine plain_of_isWord ?_ (not_mem_reservedNames_of_underscore (by simp))
  have hword := isWord_suffix h (toString k).toList fun _ => isNameChar_of_mem_toString
  rwa [String.ofList_toList] at hword

/-- The name of a copy. -/
theorem plain_copy {name : String} (h : IsWord name.toList) : Plain (name ++ "_copy") := by
  have hsplit : name ++ "_copy" = name ++ "_" ++ String.ofList "copy".toList := by
    rw [String.ofList_toList, String.append_assoc]
    rfl
  rw [hsplit]
  refine plain_of_isWord (isWord_suffix h _ (List.all_eq_true.mp (by decide))) ?_
  exact not_mem_reservedNames_of_underscore (by simp)

/-- The name of a dataframe that had none. -/
theorem plain_df (k : Nat) : Plain ("df" ++ toString k) := by
  refine plain_of_isWord ?_ fun hmem => ?_
  · rw [String.toList_append]
    exact IsWord.append (by decide) fun c hc => isNameChar_of_mem_toString hc
  · have hnone : ∀ n ∈ reservedNames, n.toList.take 2 ≠ ['d', 'f'] := by decide
    exact hnone _ hmem (by rw [String.toList_append]; rfl)

/-! ## Names from texts -/

/-- Letters, digits and underscores, none of them beyond ASCII, and no digit at the beginning. -/
structure AsciiWord (cs : List Char) : Prop where
  ne_nil : cs ≠ []
  begins : ∀ c ∈ cs.head?, c.isDigit = false
  chars : ∀ c ∈ cs, c.isAlphanum = true ∨ c = '_'

namespace AsciiWord

variable {cs : List Char}

/-- A word of ASCII characters is a word. -/
theorem isWord (h : AsciiWord cs) : IsWord cs := by
  cases cs with
  | nil => exact absurd rfl h.ne_nil
  | cons c rest =>
    refine ⟨?_, fun d hd => ?_⟩
    · rcases h.chars c List.mem_cons_self with halphanum | rfl
      · exact isNameStart_of_isAlphanum halphanum (h.begins c rfl)
      · decide
    · rcases h.chars d (List.mem_cons_of_mem c hd) with halphanum | rfl
      · exact isNameChar_of_isAlphanum halphanum
      · decide

/-- It goes on with letters, digits and underscores. -/
theorem append (h : AsciiWord cs) {more : List Char} (hmore : ∀ c ∈ more, c.isAlphanum = true ∨ c = '_') :
    AsciiWord (cs ++ more) := by
  refine ⟨List.append_ne_nil_of_left_ne_nil h.ne_nil more, ?_, fun c hc => ?_⟩
  · rw [List.head?_append_of_ne_nil _ h.ne_nil]
    exact h.begins
  · exact (List.mem_append.mp hc).elim (h.chars c) (hmore c)

end AsciiWord

/-- The characters made of any text are letters, digits and underscores. -/
theorem chars_nameChars (raw : String) : ∀ c ∈ nameChars raw, c.isAlphanum = true ∨ c = '_' := by
  intro c hc
  obtain ⟨d, -, rfl⟩ := List.mem_map.mp hc
  split
  · exact Or.inl ‹_›
  · exact Or.inr rfl

/-- The characters that names are made of are left as they are. -/
theorem nameChars_eq_self {name : String} (h : ∀ c ∈ name.toList, c.isAlphanum = true ∨ c = '_') :
    nameChars name = name.toList := by
  refine (List.map_congr_left fun c hc => ?_).trans (List.map_id name.toList)
  rcases h c hc with halphanum | rfl
  · exact if_pos halphanum
  · exact if_neg (by decide)

/-- The name made from a text is a word, or a word with an ending if the word is taken by the
language. -/
theorem usableName_eq (raw : String) : ∃ cs, AsciiWord cs ∧ usableName raw =
    if reservedNames.contains (String.ofList cs) then String.ofList cs ++ "_df"
    else String.ofList cs := by
  have hall := chars_nameChars raw
  have hprefix : AsciiWord "df_".toList := ⟨by simp, by simp, by simp⟩
  unfold usableName
  cases hchars : nameChars raw with
  | nil => exact ⟨"df_".toList, hprefix, rfl⟩
  | cons c rest =>
    rw [hchars] at hall
    refine ⟨_, ?_, rfl⟩
    simp only
    split
    case isTrue => exact hprefix.append hall
    case isFalse hdigit =>
      refine ⟨by simp, fun d hd => ?_, hall⟩
      obtain rfl : c = d := Option.some.inj hd
      exact Bool.not_eq_true _ ▸ hdigit

/-- The name made from a text is a word that is not taken by the language. -/
theorem asciiWord_usableName (raw : String) :
    AsciiWord (usableName raw).toList ∧ usableName raw ∉ reservedNames := by
  obtain ⟨cs, hword, heq⟩ := usableName_eq raw
  rw [heq]
  split
  case isTrue =>
    rw [String.toList_append, String.toList_ofList]
    refine ⟨hword.append (by simp), not_mem_reservedNames_of_underscore ?_⟩
    simp
  case isFalse hfree => exact ⟨by rwa [String.toList_ofList], by simpa using hfree⟩

/-- A word that is not taken by the language is a usable name as it is. -/
theorem usableName_eq_self {name : String} (h : AsciiWord name.toList) (hfree : name ∉ reservedNames) :
    usableName name = name := by
  have hname : usableName name = if reservedNames.contains name then name ++ "_df" else name := by
    unfold usableName
    rw [nameChars_eq_self h.chars]
    cases hchars : name.toList with
    | nil => exact absurd hchars h.ne_nil
    | cons c rest =>
      have hdigit : c.isDigit = false := h.begins c (by rw [hchars]; rfl)
      simp only [hdigit, Bool.false_eq_true, if_false]
      rw [← hchars, String.ofList_toList]
  rw [hname, if_neg (by simpa using hfree)]

/-- Whatever the text, the name made from it is plain. -/
theorem plain_usableName (raw : String) : Plain (usableName raw) :=
  plain_of_isWord (asciiWord_usableName raw).1.isWord (asciiWord_usableName raw).2

/-! ## Fresh names -/

/-- Texts with different numbers after them are different. -/
theorem append_toString_injective (text : String) {i j : Nat}
    (h : text ++ toString i = text ++ toString j) : i = j := by
  have hchars := congrArg String.toList h
  simp only [String.toList_append, List.append_cancel_left_eq, Nat.toString_eq_repr,
    Nat.toList_repr] at hchars
  rw [← Nat.ofDigitChars_ten_toDigits (n := i), hchars, Nat.ofDigitChars_ten_toDigits]

/-- A text is none of its numbered candidates. -/
theorem ne_numbered (base : String) (k : Nat) : base ≠ base ++ "_" ++ toString k := fun h => by
  have hlength := congrArg String.length h
  rw [String.length_append, String.length_append, show "_".length = 1 from rfl] at hlength
  omega

namespace Workbook

/-- A search for a fresh name gives the first candidate that is free, if not all of them are taken. -/
theorem freshFrom_spec (w : Workbook) (base : String) (k tries : Nat) :
    (∃ i, k ≤ i ∧ w.freshFrom base k tries = base ++ "_" ++ toString i ∧
      base ++ "_" ++ toString i ∉ w.names ∧ ∀ j, k ≤ j → j < i → base ++ "_" ++ toString j ∈ w.names) ∨
      ∀ j, k ≤ j → j < k + tries → base ++ "_" ++ toString j ∈ w.names := by
  induction tries generalizing k with
  | zero => exact Or.inr fun j h₁ h₂ => by omega
  | succ tries ih =>
    have hstep : w.freshFrom base k (tries + 1) = if w.has (base ++ "_" ++ toString k) then
        w.freshFrom base (k + 1) tries else base ++ "_" ++ toString k := rfl
    rw [hstep]
    split
    case isFalse hfree =>
      refine Or.inl ⟨k, le_rfl, rfl, fun hmem => hfree ((Keyed.has_iff _ _).mpr hmem), fun j h₁ h₂ => ?_⟩
      omega
    case isTrue htaken =>
      -- what is taken from the next number on is taken from this one on
      have htaken' : ∀ {bound : Nat}, (∀ j, k + 1 ≤ j → j < bound → base ++ "_" ++ toString j ∈ w.names) →
          ∀ j, k ≤ j → j < bound → base ++ "_" ++ toString j ∈ w.names := by
        intro bound hall j h₁ h₂
        rcases Nat.eq_or_lt_of_le h₁ with rfl | hlt
        · exact (Keyed.has_iff _ _).mp htaken
        · exact hall j hlt h₂
      rcases ih (k + 1) with ⟨i, hle, heq, hfree, hleast⟩ | hall
      · exact Or.inl ⟨i, Nat.le_of_succ_le hle, heq, hfree, htaken' hleast⟩
      · exact Or.inr (htaken' fun j h₁ h₂ => hall j h₁ (by omega))

/-- A base and its first candidates that are all taken are names, and there are no more of them than
names. -/
theorem le_size_of_taken {w : Workbook} {base : String} (hbase : base ∈ w.names) {k : Nat} (hk : 1 ≤ k)
    (htaken : ∀ j, 1 ≤ j → j < k → base ++ "_" ++ toString j ∈ w.names) : k ≤ w.size := by
  have hnodup : (base :: (List.range (k - 1)).map fun i => base ++ "_" ++ toString (i + 1)).Nodup := by
    refine List.nodup_cons.mpr ⟨fun hmem => ?_, List.Nodup.map (fun i j h =>
      Nat.succ_injective (append_toString_injective _ h)) List.nodup_range⟩
    obtain ⟨i, -, heq⟩ := List.mem_map.mp hmem
    exact ne_numbered base (i + 1) heq.symm
  have hsub : (base :: (List.range (k - 1)).map fun i => base ++ "_" ++ toString (i + 1)) ⊆ w.names := by
    refine List.cons_subset.mpr ⟨hbase, fun name hname => ?_⟩
    obtain ⟨i, hi, rfl⟩ := List.mem_map.mp hname
    have := List.mem_range.mp hi
    exact htaken (i + 1) (by omega) (by omega)
  have hlength := (List.subperm_of_subset hnodup hsub).length_le
  rw [List.length_cons, List.length_map, List.length_range, names, Keyed.keys, List.length_map] at hlength
  change k ≤ w.frames.length
  omega

/-- The name is the base if that is free, and otherwise the first of its numbered candidates that is. No
more candidates are tried than there are names. -/
inductive FirstFree (w : Workbook) (base : String) : String → Prop
  | base (free : base ∉ w.names) : FirstFree w base base
  | numbered {k : Nat} (taken : base ∈ w.names) (positive : 1 ≤ k) (bound : k ≤ w.size)
    (free : base ++ "_" ++ toString k ∉ w.names)
    (least : ∀ j, 1 ≤ j → j < k → base ++ "_" ++ toString j ∈ w.names) :
    FirstFree w base (base ++ "_" ++ toString k)

/-- A fresh name is the first that is free. -/
theorem freshName_spec (w : Workbook) (base : String) : w.FirstFree base (w.freshName base) := by
  unfold freshName
  split
  case isFalse hfree => exact .base fun hmem => hfree ((Keyed.has_iff _ _).mpr hmem)
  case isTrue hhas =>
    have htaken : base ∈ w.names := (Keyed.has_iff _ _).mp hhas
    rcases w.freshFrom_spec base 1 (w.size + 1) with ⟨k, hk, heq, hfree, hleast⟩ | hall
    · rw [heq]
      exact .numbered htaken hk (le_size_of_taken htaken hk hleast) hfree hleast
    · have := le_size_of_taken htaken (Nat.le_add_right 1 (w.size + 1)) hall
      omega

/-- A fresh name is not taken. -/
theorem freshName_not_mem (w : Workbook) (base : String) : w.freshName base ∉ w.names := by
  have hspec := w.freshName_spec base
  generalize w.freshName base = name at hspec ⊢
  cases hspec with
  | base free => exact free
  | numbered _ _ _ free _ => exact free

/-- A dataframe under a fresh name goes to the end. -/
theorem insert_freshName (w : Workbook) (base : String) (f : Frame) :
    w.insert (w.freshName base) f = ⟨w.frames ++ [(w.freshName base, f)]⟩ :=
  congrArg Workbook.mk (Keyed.put_of_not_mem (w.freshName_not_mem base) f)

/-- A fresh name made from a plain one is plain. -/
theorem plain_freshName (w : Workbook) {base : String} (h : Plain base) : Plain (w.freshName base) := by
  have hspec := w.freshName_spec base
  generalize w.freshName base = name at hspec ⊢
  cases hspec with
  | base => exact h
  | numbered => exact plain_numbered h.isWord _

/-- A fresh name made from one that is not taken by the language is not taken by it either. -/
theorem freshName_not_mem_reservedNames (w : Workbook) {base : String} (h : base ∉ reservedNames) :
    w.freshName base ∉ reservedNames := by
  have hspec := w.freshName_spec base
  generalize w.freshName base = name at hspec ⊢
  cases hspec with
  | base => exact h
  | numbered => exact not_mem_reservedNames_of_underscore (by simp)

end Workbook

end TableScript
