import Mathlib.Data.List.Nodup
import RadixRouter.Files.Directory
import RadixRouter.Proofs.Path.Clean

/-!
What is served of a directory: for every path the file below the base that the names in the path
lead to, or the index file there, and nothing if the path has a `..` in it.
-/

namespace RadixRouter

namespace Directory

variable {directory : Directory} {location : Location} {bytes : Bytes}

def Listed (directory : Directory) : Prop :=
  (directory.entries.map Prod.fst).Nodup

/-- Whether `location` denotes a directory: the outermost one, one that is listed, or one with
something below it. -/
def Denotes (directory : Directory) (location : Location) : Prop :=
  location = [] ∨ (location, .directory) ∈ directory.entries
    ∨ ∃ name below entry, (location ++ name :: below, entry) ∈ directory.entries

theorem Listed.entry_eq {entry entry' : DirectoryEntry} (h : directory.Listed)
    (hmem : (location, entry) ∈ directory.entries)
    (hmem' : (location, entry') ∈ directory.entries) : entry = entry' :=
  (Prod.mk.inj (List.inj_on_of_nodup_map h hmem hmem' rfl)).2

theorem mem_of_file? (hfile : directory.file? location = some bytes) :
    (location, .file bytes) ∈ directory.entries := by
  obtain ⟨⟨place, entry⟩, hmem, hentry⟩ := List.exists_of_findSome?_eq_some hfile
  cases entry with
  | directory => contradiction
  | file found =>
      obtain ⟨rfl, hbytes⟩ := Option.ite_none_right_eq_some.mp hentry
      rw [← Option.some.inj hbytes]
      exact hmem

theorem Listed.file?_eq_some_iff (h : directory.Listed) :
    directory.file? location = some bytes ↔ (location, .file bytes) ∈ directory.entries := by
  refine ⟨mem_of_file?, ?_⟩
  intro hmem
  cases hfile : directory.file? location with
  | none =>
      rw [file?, List.findSome?_eq_none_iff] at hfile
      simpa using hfile _ hmem
  | some found =>
      cases h.entry_eq (mem_of_file? hfile) hmem
      rfl

theorem isDirectory_iff : directory.isDirectory location = true ↔ directory.Denotes location := by
  rw [isDirectory, Denotes, Bool.or_eq_true, decide_eq_true_eq, List.any_eq_true]
  refine or_congr_right ?_
  constructor
  · rintro ⟨⟨place, entry⟩, hmem, hentry⟩
    cases entry with
    | file bytes =>
        obtain ⟨hfront, hne⟩ := (Bool.and_eq_true _ _).mp hentry
        obtain ⟨_ | ⟨name, below⟩, rfl⟩ := List.isPrefixOf_iff_prefix.mp hfront
        · simp at hne
        · exact Or.inr ⟨name, below, _, hmem⟩
    | directory =>
        obtain ⟨_ | ⟨name, below⟩, rfl⟩ := List.isPrefixOf_iff_prefix.mp hentry
        · rw [List.append_nil] at hmem
          exact Or.inl hmem
        · exact Or.inr ⟨name, below, _, hmem⟩
  · rintro (hmem | ⟨name, below, entry, hmem⟩)
    · exact ⟨_, hmem, List.isPrefixOf_iff_prefix.mpr List.prefix_rfl⟩
    · refine ⟨_, hmem, ?_⟩
      cases entry <;> simp

instance (directory : Directory) (location : Location) : Decidable (directory.Denotes location) :=
  decidable_of_iff _ isDirectory_iff

/-- A plain name leads into the directory where it is looked up. -/
theorem fileLocation?_eq {name : Text} (h : Path.Element name) (directory : Directory)
    (location : Location) : directory.fileLocation? location name = some (location ++ [name]) := by
  have hhead : name.head? ≠ some '/' := fun hhead => h.no_slash (List.mem_of_head? hhead)
  have hsplit := Text.splitAt_of_not_mem h.no_slash
  have hnames : names name = [name] := by
    simp [names, hsplit, h.ne_nil, h.ne_dot]
  rw [fileLocation?, hsplit, hnames]
  simp [hhead, h.ne_nil, h.ne_dot, h.ne_dots, walk]

end Directory

/-! ### Where a path leads to -/

namespace Component

theorem ofElement?_nil : ofElement? [] = none := rfl

theorem ofElement?_dot : ofElement? ['.'] = none := rfl

theorem ofElement?_dots : ofElement? ['.', '.'] = some .parent := rfl

theorem ofElement?_of_proper {element : Text} (h : Path.Proper element) :
    ofElement? element = some (.name element) := by
  simp [ofElement?, h.ne_nil, h.ne_dot, h.ne_dots]

/-- The elements of a path lead to where its names are, unless one of them is `..`. -/
theorem foldlM_enter?_elements (elements : List Text) (location : Location) :
    (elements.filterMap ofElement?).foldlM Location.enter? location
      = if ['.', '.'] ∈ elements then none
        else some (location ++ elements.filter fun name => name ≠ [] && name ≠ ['.']) := by
  induction elements generalizing location with
  | nil => simp
  | cons element elements ih =>
      by_cases hnil : element = []
      · rw [hnil, List.filterMap_cons_none ofElement?_nil, ih]
        simp
      by_cases hdot : element = ['.']
      · rw [hdot, List.filterMap_cons_none ofElement?_dot, ih]
        simp
      by_cases hdots : element = ['.', '.']
      · rw [hdots, List.filterMap_cons_some ofElement?_dots, List.foldlM_cons]
        simp [Location.enter?]
      have hname := ofElement?_of_proper ⟨hnil, hdot, hdots⟩
      rw [List.filterMap_cons_some hname, List.foldlM_cons]
      simp [Location.enter?, ih, hnil, hdot, Ne.symm hdots]

/-- Slashes that a path begins with are no part of it. -/
theorem filterMap_splitAt_dropWhile (path : Text) :
    (Text.splitAt '/' (path.dropWhile (· = '/'))).filterMap ofElement?
      = (Text.splitAt '/' path).filterMap ofElement? := by
  induction path with
  | nil => rfl
  | cons c path ih =>
      by_cases hc : c = '/'
      · subst hc
        rw [List.dropWhile_cons_of_pos (by simp), Text.splitAt_cons_sep, ih]
        rfl
      · rw [List.dropWhile_cons_of_neg (by simpa using hc)]

/-- A `.` that a relative path begins with leads nowhere else. -/
theorem foldlM_enter?_components {path : Text} (hrelative : path.head? ≠ some '/')
    (location : Location) :
    (components path).foldlM Location.enter? location
      = ((Text.splitAt '/' path).filterMap ofElement?).foldlM Location.enter? location := by
  rw [components, if_neg hrelative]
  split
  · rw [List.foldlM_cons]
    rfl
  · rfl

end Component

namespace StaticFiles

variable {files : StaticFiles} {path : Text} {bytes : Bytes}

/-- A path leads to where its names are, seen from the base, or nowhere if it has a `..` in it. -/
theorem locate?_eq (files : StaticFiles) (path : Text) :
    files.locate? path
      = if ['.', '.'] ∈ Text.splitAt '/' path then none
        else some (files.base ++ Directory.names path) := by
  have hrelative : (path.dropWhile (· = '/')).head? ≠ some '/' := by
    intro hhead
    have := List.head?_dropWhile_not (fun c => decide (c = '/')) path
    rw [hhead] at this
    contradiction
  rw [locate?, Component.foldlM_enter?_components hrelative, Component.filterMap_splitAt_dropWhile,
    Component.foldlM_enter?_elements]
  rfl

/-- Whether it is an index file that is shown for a path: the path is written like that of a
directory, or leads to one. -/
def ShowsIndex (files : StaticFiles) (path : Text) : Prop :=
  path = [] ∨ path.getLast? = some '/'
    ∨ files.directory.Denotes (files.base ++ Directory.names path)

instance (files : StaticFiles) (path : Text) : Decidable (files.ShowsIndex path) :=
  inferInstanceAs (Decidable (_ ∨ _ ∨ _))

/-- Where the file lies that is shown for a path without `..`. -/
def shown (files : StaticFiles) (path : Text) : Location :=
  files.base ++ Directory.names path ++ if files.ShowsIndex path then [files.index] else []

theorem target?_eq (hindex : Path.Element files.index) (path : Text) :
    files.target? path (files.base ++ Directory.names path) = some (files.shown path) := by
  have hshows : (path = [] || path.getLast? = some '/'
        || files.directory.isDirectory (files.base ++ Directory.names path)) = true
      ↔ files.ShowsIndex path := by
    rw [ShowsIndex, ← Directory.isDirectory_iff]
    simp [or_assoc]
  rw [target?, shown, Directory.fileLocation?_eq hindex]
  by_cases hindexed : files.ShowsIndex path
  · rw [if_pos (hshows.mpr hindexed), if_pos hindexed]
  · rw [if_neg (hshows.not.mpr hindexed), if_neg hindexed, List.append_nil]

/-- What a path gives: the file that is shown for it, if there is one, and nothing if the path has a
`..` in it. -/
structure Serves (files : StaticFiles) (path : Text) : Prop where
  refused : files.openFile path = .error .permissionDenied ↔ ['.', '.'] ∈ Text.splitAt '/' path
  found : ['.', '.'] ∉ Text.splitAt '/' path →
    ∀ bytes, (files.shown path, .file bytes) ∈ files.directory.entries →
    files.openFile path = .ok ⟨bytes, contentType ((files.shown path).getLast?.getD [])⟩
  missing : ['.', '.'] ∉ Text.splitAt '/' path →
    (∀ bytes, (files.shown path, .file bytes) ∉ files.directory.entries) →
    files.openFile path = .error .notFound
  /-- All that is served lies below the base. -/
  confined : ∀ content, files.openFile path = .ok content →
    ∃ below, ['.', '.'] ∉ below
      ∧ (files.base ++ below, .file content.bytes) ∈ files.directory.entries

theorem openFile_of_mem_dots (hdots : ['.', '.'] ∈ Text.splitAt '/' path) :
    files.openFile path = .error .permissionDenied := by
  rw [openFile, locate?_eq, if_pos hdots]

theorem openFile_of_some (hindex : Path.Element files.index)
    (hdots : ['.', '.'] ∉ Text.splitAt '/' path)
    (hfile : files.directory.file? (files.shown path) = some bytes) :
    files.openFile path = .ok ⟨bytes, contentType ((files.shown path).getLast?.getD [])⟩ := by
  rw [openFile, locate?_eq, if_neg hdots]
  simp only [target?_eq hindex, hfile]

theorem openFile_of_none (hindex : Path.Element files.index)
    (hdots : ['.', '.'] ∉ Text.splitAt '/' path)
    (hfile : files.directory.file? (files.shown path) = none) :
    files.openFile path = .error .notFound := by
  rw [openFile, locate?_eq, if_neg hdots]
  simp only [target?_eq hindex, hfile]

theorem exists_shown_eq (hindex : Path.Element files.index)
    (hdots : ['.', '.'] ∉ Text.splitAt '/' path) :
    ∃ below, ['.', '.'] ∉ below ∧ files.shown path = files.base ++ below := by
  refine ⟨Directory.names path ++ if files.ShowsIndex path then [files.index] else [], ?_, ?_⟩
  · have hnames : ['.', '.'] ∉ Directory.names path := fun hmem => hdots (List.mem_filter.mp hmem).1
    split <;> simp [hnames, Ne.symm hindex.ne_dots]
  · rw [shown, List.append_assoc]

/-- With a plain name for the index file, what the paths lead to is served, and nothing else. -/
theorem openFile_serves (hlisted : files.directory.Listed) (hindex : Path.Element files.index)
    (path : Text) : files.Serves path := by
  by_cases hdots : ['.', '.'] ∈ Text.splitAt '/' path
  · have hopen : files.openFile path = .error .permissionDenied := openFile_of_mem_dots hdots
    refine ⟨iff_of_true hopen hdots, fun hnot => (hnot hdots).elim, fun hnot => (hnot hdots).elim,
      ?_⟩
    intro content hcontent
    simp [hopen] at hcontent
  · cases hfile : files.directory.file? (files.shown path) with
    | some bytes =>
        have hmem := hlisted.file?_eq_some_iff.mp hfile
        have hopen := openFile_of_some hindex hdots hfile
        refine ⟨iff_of_false (by simp [hopen]) hdots, ?_, ?_, ?_⟩
        · intro _ bytes' hmem'
          cases hlisted.entry_eq hmem hmem'
          exact hopen
        · intro _ hnone
          exact (hnone bytes hmem).elim
        · intro content hcontent
          obtain ⟨below, hbelow, hshown⟩ := exists_shown_eq hindex hdots
          rw [hopen] at hcontent
          cases hcontent
          exact ⟨below, hbelow, hshown ▸ hmem⟩
    | none =>
        have hopen := openFile_of_none hindex hdots hfile
        refine ⟨iff_of_false (by simp [hopen]) hdots, ?_, fun _ _ => hopen, ?_⟩
        · intro _ bytes hmem
          simp [hlisted.file?_eq_some_iff.mpr hmem] at hfile
        · intro content hcontent
          simp [hopen] at hcontent

/-- Two files below the base, one of them an index file, and one beside the base. -/
def readingRoom : StaticFiles where
  directory := ⟨[(["srv".toList, "a.txt".toList], .file [0x41]),
    (["srv".toList, "docs".toList, "index.html".toList], .file [0x42]),
    (["key".toList], .file [0x43])]⟩
  base := ["srv".toList]

/-- The index file is shown for its directory, and there is no way to the file beside the base. -/
theorem readingRoom_serves :
    readingRoom.directory.Listed ∧ Path.Element readingRoom.index
      ∧ readingRoom.openFile "//docs/.".toList
        = .ok ⟨[0x42], "text/html; charset=utf-8".toList⟩
      ∧ readingRoom.openFile "docs/../../key".toList = .error .permissionDenied := by
  have hlisted : readingRoom.directory.Listed := by
    unfold Directory.Listed
    decide
  have hindex : Path.Element readingRoom.index := by
    refine ⟨⟨?_, ?_, ?_⟩, ?_⟩ <;> decide
  refine ⟨hlisted, hindex, ?_, ?_⟩
  · exact (openFile_serves hlisted hindex _).found (by decide +kernel) _ (by decide +kernel)
  · exact (openFile_serves hlisted hindex _).refused.mpr (by decide +kernel)

end StaticFiles

end RadixRouter
