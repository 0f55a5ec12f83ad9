import TableScript.Files
import TableScript.Proofs.Keyed

/-!
# Saved files

What is saved under a path is read back under the same path (`read_save`). The path need not be the place of
the file: it may pass through directories and leave them again, and reading walks the whole way once more, in
files that have changed. `Leads` is that way, through directories only. Saving takes away no directory, since
what stood at the place before was none, so the way still leads there (`leads_putAt`), and there are the new
bytes.
-/

namespace TableScript.Files

/-! ## Places -/

/-- What stands under plain names, one in the directory of the other. -/
def find? : FileNode → List String → Option FileNode
  | node, [] => some node
  | .file _, _ :: _ => none
  | .directory entries, name :: rest => (Keyed.get? entries name).bind (find? · rest)

/-- There is a directory at the place. -/
def IsDirectory (root : FileNode) (place : List String) : Prop :=
  ∃ entries, find? root place = some (.directory entries)

/-- A name that leads into a directory or to a file. -/
def IsPlain (name : String) : Prop := name ≠ "" ∧ name ≠ "." ∧ name ≠ ".."

/-- The rest of a path leads from one place to another, through directories only. The last name of a place
comes first. -/
inductive Leads (root : FileNode) : List String → List String → List String → Prop where
  | arrived {names : List String} : Leads root names [] names
  | stay {names rest place : List String} (name : String) : (name = "" ∨ name = ".") →
      IsDirectory root names.reverse → Leads root names rest place → Leads root names (name :: rest) place
  | up {name : String} {names rest place : List String} : IsDirectory root (name :: names).reverse →
      Leads root names rest place → Leads root (name :: names) (".." :: rest) place
  | down {name : String} {names rest place : List String} : IsDirectory root names.reverse → IsPlain name →
      ¬ 255 < name.utf8ByteSize → Leads root (name :: names) rest place → Leads root names (name :: rest) place

/-- A walk has come to a place, through the directories above it. -/
inductive Stands (root : FileNode) : List String → List FileNode → FileNode → Prop where
  | top : Stands root [] [] root
  | down {name : String} {names : List String} {above : List FileNode} {entries : Files} {node : FileNode} :
      Stands root names above (.directory entries) → Keyed.get? entries name = some node →
      Stands root (name :: names) (.directory entries :: above) node

variable {root here node : FileNode} {entries files : Files} {above : List FileNode}
  {name : String} {names rest more place : List String} {bytes : List UInt8}

/-- A place below a place is found from there. -/
theorem find?_append (root : FileNode) (first second : List String) :
    find? root (first ++ second) = (find? root first).bind (find? · second) := by
  induction first generalizing root with
  | nil => rfl
  | cons name first ih =>
    cases root with
    | file => rfl
    | directory entries =>
      simp only [List.cons_append, find?]
      cases Keyed.get? entries name with
      | none => rfl
      | some node => exact ih node

/-- An entry of a directory is found below it. -/
theorem find?_reverse_cons (h : find? root names.reverse = some (.directory entries)) (name : String) :
    find? root (name :: names).reverse = Keyed.get? entries name := by
  rw [List.reverse_cons, find?_append, h]
  cases hnode : Keyed.get? entries name <;> simp [find?, hnode]

/-! ## Putting a file at a place -/

/-- A file that was put somewhere is found there. -/
theorem find?_putAt_self (bytes : List UInt8) (files : Files) (hplace : place ≠ []) :
    find? (.directory (putAt (.file bytes) files place)) place = some (.file bytes) := by
  induction place generalizing files with
  | nil => exact absurd rfl hplace
  | cons name rest ih =>
    cases rest with
    | nil => simp [putAt, find?]
    | cons next rest =>
      simp only [putAt]
      split <;> simpa only [find?, Keyed.get?_put_self, Option.bind_some] using ih _ (List.cons_ne_nil _ _)

/-- Directories stay, as long as the file takes the place of none. -/
theorem isDirectory_putAt (hplace : ¬ IsDirectory (.directory files) place)
    (h : IsDirectory (.directory files) names) :
    IsDirectory (.directory (putAt (.file bytes) files place)) names := by
  unfold IsDirectory at *
  induction place generalizing files names with
  | nil => exact h
  | cons name rest ih =>
    cases names with
    | nil => exact ⟨_, rfl⟩
    | cons first names =>
      obtain ⟨entries, hentries⟩ := h
      simp only [find?] at hentries hplace
      -- under another name nothing changes; under this one there is a directory, and the place is in it
      by_cases hname : name = first
      case neg =>
        cases rest with
        | nil => exact ⟨entries, by simpa [putAt, find?, Keyed.get?_put_of_ne _ _ hname] using hentries⟩
        | cons next rest =>
          simp only [putAt]
          split <;> exact ⟨entries, by simpa [find?, Keyed.get?_put_of_ne _ _ hname] using hentries⟩
      case pos =>
        subst hname
        cases hnode : Keyed.get? files name with
        | none =>
          rw [hnode] at hentries
          cases hentries
        | some node =>
          rw [hnode, Option.bind_some] at hentries hplace
          cases node with
          | file bytes => cases names <;> cases hentries
          | directory inner =>
            cases rest with
            | nil => exact absurd ⟨inner, rfl⟩ hplace
            | cons next rest =>
              simpa [putAt, hnode, find?, Keyed.get?_put_self] using ih hplace ⟨entries, hentries⟩

/-! ## Ways -/

/-- Where a walk stands is found by the names that led it there. -/
theorem Stands.find? (h : Stands root names above here) : Files.find? root names.reverse = some here := by
  induction h with
  | top => rfl
  | down _ hnode ih => rw [find?_reverse_cons ih, hnode]

/-- A walk that stands at a directory can look into it. -/
theorem Stands.exists_entries (h : Stands root names above here) (hdirectory : IsDirectory root names.reverse) :
    ∃ entries, here = .directory entries := by
  obtain ⟨entries, hentries⟩ := hdirectory
  exact ⟨entries, Option.some.inj (h.find?.symm.trans hentries)⟩

/-- Two parts of a path lead one after the other. -/
theorem Leads.append (h : Leads root names rest place) {last : List String}
    (hmore : Leads root place more last) : Leads root names (rest ++ more) last := by
  induction h with
  | arrived => exact hmore
  | stay name hname hdirectory _ ih => exact .stay name hname hdirectory (ih hmore)
  | up hdirectory _ ih => exact .up hdirectory (ih hmore)
  | down hdirectory hplain hshort _ ih => exact .down hdirectory hplain hshort (ih hmore)

/-- A way stays where no directory is lost. -/
theorem Leads.mono {after : FileNode} (h : Leads root names rest place)
    (hkept : ∀ names, IsDirectory root names → IsDirectory after names) : Leads after names rest place := by
  induction h with
  | arrived => exact .arrived
  | stay name hname hdirectory _ ih => exact .stay name hname (hkept _ hdirectory) ih
  | up hdirectory _ ih => exact .up (hkept _ hdirectory) ih
  | down hdirectory hplain hshort _ ih => exact .down (hkept _ hdirectory) hplain hshort ih

/-- A path leads where it did when a file is put in a place that is no directory. -/
theorem leads_putAt (h : Leads (.directory files) names rest more)
    (hplace : ¬ IsDirectory (.directory files) place) (bytes : List UInt8) :
    Leads (.directory (putAt (.file bytes) files place)) names rest more :=
  h.mono fun _ hnames => isDirectory_putAt hplace hnames

/-! ## Walking -/

section Steps

variable {name : String} {names : List String}

/-- A name stays, leads up, or leads down. -/
theorem stay_or_up_or_plain (name : String) : (name = "" ∨ name = ".") ∨ name = ".." ∨ IsPlain name := by
  by_cases hup : name = ".."
  · exact .inr (.inl hup)
  · by_cases hstay : name = "" ∨ name = "."
    · exact .inl hstay
    · exact .inr (.inr ⟨fun h => hstay (.inl h), fun h => hstay (.inr h), hup⟩)

/-- An empty name, or a dot, stays in the place. -/
theorem settle_stay (h : name = "" ∨ name = ".") : settle names (name :: rest) = settle names rest := by
  obtain rfl | rfl := h <;> simp [settle]

/-- A plain name goes down. -/
theorem settle_plain (h : IsPlain name) : settle names (name :: rest) = settle (name :: names) rest := by
  simp [settle, h.1, h.2.1, h.2.2]

/-- A walk stays where it is on an empty name, or a dot. -/
theorem walk_stay (h : name = "" ∨ name = ".") :
    walk above (.directory entries) (name :: rest) = walk above (.directory entries) rest := by
  obtain rfl | rfl := h <;> simp [walk]

/-- A walk fails on a name that is too long. -/
theorem walk_long (h : IsPlain name) (hlong : 255 < name.utf8ByteSize) :
    walk above (.directory entries) (name :: rest) = .error .nameTooLong := by
  simp [walk, h.1, h.2.1, h.2.2, hlong]

/-- A walk goes down on a plain name, if there is an entry of that name. -/
theorem walk_plain (h : IsPlain name) (hshort : ¬ 255 < name.utf8ByteSize) :
    walk above (.directory entries) (name :: rest) = match Keyed.get? entries name with
      | none => .error .notFound
      | some node => walk (.directory entries :: above) node rest := by
  simp only [walk, h.1, h.2.1, h.2.2, hshort, if_false]
  cases Keyed.get? entries name <;> rfl

end Steps

/-- Two parts of a path are settled one after the other. -/
theorem settle_append (names first second : List String) :
    settle names (first ++ second) = (settle names first).bind fun place => settle place.reverse second := by
  induction first generalizing names with
  | nil => simp [settle]
  | cons name first ih =>
    rcases stay_or_up_or_plain name with hstay | rfl | hplain
    · rw [List.cons_append, settle_stay hstay, settle_stay hstay, ih]
    · cases names with
      | nil => simp [settle]
      | cons last higher => simpa [settle] using ih higher
    · rw [List.cons_append, settle_plain hplain, settle_plain hplain, ih]

/-- A walk follows a way to the node at its end. -/
theorem Leads.walk_append (h : Leads root names rest place) (hstands : Stands root names above here)
    (hnode : find? root place.reverse = some node) :
    ∃ higher, Stands root place higher node ∧
      ∀ more, walk above here (rest ++ more) = walk higher node more := by
  induction h generalizing above here with
  | arrived =>
    rw [hstands.find?] at hnode
    cases hnode
    exact ⟨above, hstands, fun _ => rfl⟩
  | stay name hname hdirectory _ ih =>
    obtain ⟨entries, rfl⟩ := hstands.exists_entries hdirectory
    obtain ⟨higher, hhigher, hwalk⟩ := ih hstands hnode
    exact ⟨higher, hhigher, fun more => by rw [List.cons_append, walk_stay hname, hwalk]⟩
  | up hdirectory _ ih =>
    obtain ⟨entries, rfl⟩ := hstands.exists_entries hdirectory
    cases hstands with
    | down hstands _ =>
      obtain ⟨higher, hhigher, hwalk⟩ := ih hstands hnode
      exact ⟨higher, hhigher, fun more => by rw [← hwalk]; simp [walk]⟩
  | @down name names rest place hdirectory hplain hshort hleads ih =>
    obtain ⟨entries, rfl⟩ := hstands.exists_entries hdirectory
    -- there is something under the name, since the way goes on from there or ends there
    have hthere : Keyed.get? entries name ≠ none := by
      intro hmissing
      have hnone : find? root (name :: names).reverse = none := by
        rw [find?_reverse_cons hstands.find?, hmissing]
      have hnot : ¬ IsDirectory root (name :: names).reverse := by
        rintro ⟨_, hsome⟩
        rw [hnone] at hsome
        cases hsome
      cases hleads with
      | arrived =>
        rw [hnone] at hnode
        cases hnode
      | stay _ _ hdirectory => exact hnot hdirectory
      | up hdirectory => exact hnot hdirectory
      | down hdirectory => exact hnot hdirectory
    obtain ⟨next, hnext⟩ := Option.ne_none_iff_exists'.mp hthere
    obtain ⟨higher, hhigher, hwalk⟩ := ih (hstands.down hnext) hnode
    refine ⟨higher, hhigher, fun more => ?_⟩
    rw [List.cons_append, walk_plain hplain hshort, hnext]
    exact hwalk more

/-- A walk along a path comes to the place that it leads to. -/
theorem Leads.walk_eq_ok (h : Leads root [] rest place) (hnode : find? root place.reverse = some node) :
    walk [] root rest = .ok node := by
  obtain ⟨higher, -, hwalk⟩ := h.walk_append .top hnode
  simpa [walk] using hwalk []

/-- A walk that succeeds, and does not leave the top directory, followed a way. -/
theorem leads_of_walk (hstands : Stands root names above here) (hsettle : settle names rest = some place)
    (hwalk : walk above here rest = .ok node) :
    Leads root names rest place.reverse ∧ find? root place = some node := by
  induction rest generalizing names above here with
  | nil =>
    cases hsettle
    cases hwalk
    rw [List.reverse_reverse]
    exact ⟨.arrived, hstands.find?⟩
  | cons name rest ih =>
    cases here with
    | file => cases hwalk
    | directory entries =>
      have hdirectory : IsDirectory root names.reverse := ⟨entries, hstands.find?⟩
      -- a name stays where it is, goes up, or goes down into an entry
      rcases stay_or_up_or_plain name with hstay | rfl | hplain
      · rw [settle_stay hstay] at hsettle
        rw [walk_stay hstay] at hwalk
        obtain ⟨hleads, hfound⟩ := ih hstands hsettle hwalk
        exact ⟨.stay name hstay hdirectory hleads, hfound⟩
      · cases hstands with
        | top => simp [settle] at hsettle
        | down hstands hnode =>
          obtain ⟨hleads, hfound⟩ :=
            ih hstands (by simpa [settle] using hsettle) (by simpa [walk] using hwalk)
          exact ⟨.up hdirectory hleads, hfound⟩
      · by_cases hlong : 255 < name.utf8ByteSize
        · rw [walk_long hplain hlong] at hwalk
          cases hwalk
        · rw [settle_plain hplain] at hsettle
          rw [walk_plain hplain hlong] at hwalk
          cases hnode : Keyed.get? entries name with
          | none =>
            rw [hnode] at hwalk
            cases hwalk
          | some next =>
            rw [hnode] at hwalk
            obtain ⟨hleads, hfound⟩ := ih (hstands.down hnode) hsettle hwalk
            exact ⟨.down hdirectory hplain hlong hleads, hfound⟩

/-! ## Saving -/

/-- A path that is looked up from the top directory. -/
def IsRelative (path : String) : Prop :=
  path.contains '\x00' = false ∧ path ≠ "" ∧ ¬ 4095 < path.utf8ByteSize ∧ path.startsWith "/" = false

/-- A file can be saved at the place that a path leads to: over a file, or where nothing is, in a directory. -/
def IsFree (files : Files) (names : List String) : Prop :=
  (∃ old, walk [] (.directory files) names = .ok (.file old)) ∨
  walk [] (.directory files) names = .error .notFound ∧
    (∃ entries, walk [] (.directory files) names.dropLast = .ok (.directory entries)) ∧
    names.getLast? ≠ some "" ∧ names.getLast? ≠ some "."

/-- A relative path is walked from the top. -/
theorem node?_of_isRelative {path : String} (h : IsRelative path) (files : Files) :
    files.node? path = walk [] (.directory files) (splitPath path) := by
  simp only [node?, h.1, h.2.1, h.2.2.1, h.2.2.2, Bool.false_eq_true, if_false]

/-- A path that does not begin at the root is looked up from the top directory, unless it is refused before. -/
theorem isRelative_of_node? (files : Files) {path : String} (hrelative : ¬ path.startsWith "/" = true)
    (hnonempty : path ≠ "") (hnul : files.node? path ≠ .error .nulInName)
    (hlong : files.node? path ≠ .error .nameTooLong) : IsRelative path := by
  have hform : path.contains '\x00' = false := by
    by_contra h
    exact hnul (by rw [node?, if_pos (by simpa using h)])
  refine ⟨hform, hnonempty, fun h => hlong ?_, by simpa using hrelative⟩
  rw [node?, if_neg (by simp [hform]), if_neg hnonempty, if_pos h]

/-- The empty path is one empty name. -/
theorem splitPath_empty : splitPath "" = [""] := by
  rw [splitPath, String.splitOn, String.splitOnAux]
  decide +kernel

/-- What a saving that succeeds has found, and where the file is then. -/
theorem place_of_save {after : Files} {path : String} (h : files.save path bytes = .ok after) :
    IsRelative path ∧ IsFree files (splitPath path) ∧ ∃ place, settle [] (splitPath path) = some place ∧
      after = putAt (.file bytes) files place := by
  have hplace : ∀ place,
      (if path.startsWith "/" = true then none else settle [] (splitPath path)) = some place →
      ¬ path.startsWith "/" = true ∧ settle [] (splitPath path) = some place := by
    intro place hplace
    split at hplace
    case isTrue => cases hplace
    case isFalse hrelative => exact ⟨hrelative, hplace⟩
  simp only [save] at h
  split at h
  case h_1 => cases h
  case h_2 old place hnode hsome =>
    cases h
    -- an old file is written over
    obtain ⟨hrelative, hsettle⟩ := hplace place hsome
    have hnonempty : path ≠ "" := by
      rintro rfl
      simp [node?] at hnode
    have hpath := isRelative_of_node? files hrelative hnonempty (by simp [hnode]) (by simp [hnode])
    exact ⟨hpath, .inl ⟨old, node?_of_isRelative hpath files ▸ hnode⟩, place, hsettle, rfl⟩
  case h_3 place hnode hsome =>
    -- a new file needs the directory that it is to be in, and a name that can be one
    obtain ⟨hrelative, hsettle⟩ := hplace place hsome
    split at h
    case h_1 => cases h
    case h_2 => cases h
    case h_3 entries hwalk =>
      split at h
      case isTrue => cases h
      case isFalse hlast =>
        split at h
        case isTrue => cases h
        case isFalse hlast' =>
          cases h
          have hnonempty : path ≠ "" := by
            rintro rfl
            exact hlast (by rw [splitPath_empty]; rfl)
          have hpath := isRelative_of_node? files hrelative hnonempty (by simp [hnode]) (by simp [hnode])
          have hmissing := node?_of_isRelative hpath files ▸ hnode
          exact ⟨hpath, .inr ⟨hmissing, ⟨entries, hwalk⟩, hlast, hlast'⟩, place, hsettle, rfl⟩
  case h_4 => cases h
  case h_5 => cases h

/-- The way to a free place is there before the file is. -/
theorem leads_of_isFree (hfree : IsFree files names) (hsettle : settle [] names = some place) :
    Leads (.directory files) [] names place.reverse ∧ ¬ IsDirectory (.directory files) place := by
  rcases hfree with ⟨old, hwalk⟩ | ⟨hmissing, ⟨entries, hwalk⟩, hlast, hlast'⟩
  · obtain ⟨hleads, hfound⟩ := leads_of_walk .top hsettle hwalk
    refine ⟨hleads, ?_⟩
    rintro ⟨entries, hdirectory⟩
    rw [hfound] at hdirectory
    cases hdirectory
  · rcases List.eq_nil_or_concat names with rfl | ⟨first, last, rfl⟩
    · cases hmissing
    · rw [List.concat_eq_append] at *
      rw [List.dropLast_concat] at hwalk
      rw [List.getLast?_concat, ne_eq, Option.some.injEq] at hlast hlast'
      rw [settle_append] at hsettle
      obtain ⟨between, hbetween, hsettle⟩ := Option.bind_eq_some_iff.mp hsettle
      obtain ⟨hleads, hfound⟩ := leads_of_walk .top hbetween hwalk
      rw [← List.reverse_reverse between] at hfound
      obtain ⟨higher, hstands, hmore⟩ := hleads.walk_append .top hfound
      rw [hmore] at hmissing
      generalize between.reverse = names at *
      rcases stay_or_up_or_plain last with hstay | rfl | hplain
      · exact absurd hstay (not_or.mpr ⟨hlast, hlast'⟩)
      · -- going up leads to a directory, which is not missing
        cases hstands with
        | top => simp [settle] at hsettle
        | down => simp [walk] at hmissing
      · by_cases hlong : 255 < last.utf8ByteSize
        · rw [walk_long hplain hlong] at hmissing
          cases hmissing
        · rw [settle_plain hplain] at hsettle
          cases hsettle
          rw [walk_plain hplain hlong] at hmissing
          rw [List.reverse_reverse]
          refine ⟨hleads.append (.down ⟨entries, hfound⟩ hplain hlong .arrived), ?_⟩
          rintro ⟨inner, hdirectory⟩
          rw [find?_reverse_cons hfound] at hdirectory
          rw [hdirectory] at hmissing
          cases hmissing

/-- What is saved is read back under the same path. -/
theorem read_save {after : Files} {path : String} (h : files.save path bytes = .ok after) :
    after.read path = .ok bytes := by
  obtain ⟨hpath, hfree, place, hsettle, rfl⟩ := place_of_save h
  obtain ⟨hleads, hplace⟩ := leads_of_isFree hfree hsettle
  have hnonempty : place ≠ [] := by
    rintro rfl
    exact hplace ⟨files, rfl⟩
  have hwalk := (leads_putAt hleads hplace bytes).walk_eq_ok
    (by rw [List.reverse_reverse]; exact find?_putAt_self bytes files hnonempty)
  rw [read, node?_of_isRelative hpath, hwalk]

end TableScript.Files
