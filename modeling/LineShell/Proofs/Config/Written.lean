import LineShell.Proofs.Config.Grammar

/-!
# Writing a configuration down

A configuration is written as one line for its prompt and one for its search path, and how they are
laid out is free: their order, the blanks around their keys, the ends of their lines and the
remarks between them. `load_write`: whatever the layout, reading gives the configuration back.
-/

namespace LineShell

open SearchPath (Closes)
open Text (AllBlank Lines Parts Tight Trims isBlank mem_intercalate)

namespace Config

-- ---------------------------------------------------------------------------
-- Layouts
-- ---------------------------------------------------------------------------

inductive LineEnd
  | feed
  | returnFeed
deriving DecidableEq, Repr

def LineEnd.chars : LineEnd → List Char
  | .feed => ['\n']
  | .returnFeed => ['\r', '\n']

structure Row where
  line : List Char
  ending : LineEnd
  oneLine : '\n' ∉ line

def Row.chars (row : Row) : List Char := row.line ++ row.ending.chars

structure Remark extends Row where
  ignored : Ignored line

/-- Blanks that do not end a line. -/
structure Margin where
  chars : List Char
  blank : AllBlank chars
  oneLine : '\n' ∉ chars

/-- How the line of a setting is written: with which blanks around its key and with which end. -/
structure Style where
  before : Margin
  after : Margin
  ending : LineEnd

/-- How a configuration is written, with remarks above, between and below its two lines. -/
structure Layout where
  pathFirst : Bool
  above : List Remark
  between : List Remark
  below : List Remark
  prompt : Style
  searchPath : Style

def promptKey : List Char := "prompt".toList

def searchPathKey : List Char := "search_path".toList

def pathText (path : SearchPath) : List Char := [':'].intercalate (path.dirs.map String.toList)

/-- The two lines of a configuration take what it holds, so that nothing of it ends a line or an
entry before its end. -/
structure Writable (c : Config) : Prop where
  prompt : '\n' ∉ c.prompt.toList
  promptEnd : c.prompt.toList.getLast? ≠ some '\r'
  entries : ∀ dir ∈ c.searchPath.dirs, ':' ∉ dir.toList ∧ '\n' ∉ dir.toList
  first : ∀ dir ∈ c.searchPath.dirs.head?, ∀ ch ∈ dir.toList.head?, isBlank ch = false

def Style.line (style : Style) (key value : List Char) : List Char :=
  style.before.chars ++ (key ++ style.after.chars) ++ '=' :: value

def Style.chars (style : Style) (key value : List Char) : List Char :=
  style.line key value ++ style.ending.chars

def Layout.chars (layout : Layout) (c : Config) : List Char :=
  let prompt := layout.prompt.chars promptKey c.prompt.toList
  let path := layout.searchPath.chars searchPathKey (pathText c.searchPath)
  let (first, second) := if layout.pathFirst then (path, prompt) else (prompt, path)
  layout.above.flatMap (·.chars) ++ (first ++ (layout.between.flatMap (·.chars) ++
    (second ++ layout.below.flatMap (·.chars))))

def Layout.write (layout : Layout) (c : Config) : String := String.ofList (layout.chars c)

-- ---------------------------------------------------------------------------
-- Texts that say something
-- ---------------------------------------------------------------------------

/-- The text has lines that make these settings. -/
def Holds (text : List Char) (settings : List Setting) : Prop :=
  ∃ lines, Lines text lines ∧ Says lines settings

theorem holds_nil : Holds [] [] := ⟨[], .nil, .nil⟩

theorem ignored_dropReturn {line : List Char} (h : Ignored line) :
    Ignored (Text.dropReturn line) := by
  unfold Text.dropReturn
  split
  · next hreturn =>
    rcases h with h | ⟨pad, text, hpad, rfl⟩
    · exact .inl fun c hc => h c (List.dropLast_subset line hc)
    · cases text with
      | nil => simp at hreturn
      | cons c text => exact .inr ⟨pad, (c :: text).dropLast, hpad, by simp⟩
  · exact h

variable {text rest : List Char} {settings : List Setting}

theorem Remark.holds (remark : Remark) (h : Holds rest settings) :
    Holds (remark.chars ++ rest) settings := by
  obtain ⟨lines, hlines, hsays⟩ := h
  rw [Row.chars, List.append_assoc]
  cases hending : remark.ending with
  | feed =>
    have hmeans : Means (Text.dropReturn remark.line) (.ok none) :=
      .ignored (ignored_dropReturn remark.ignored)
    exact ⟨_, .closed remark.oneLine hlines, .ignored hmeans hsays⟩
  | returnFeed =>
    exact ⟨_, .returnFeed remark.oneLine hlines, .ignored (.ignored remark.ignored) hsays⟩

theorem holds_remarks (remarks : List Remark) (h : Holds rest settings) :
    Holds (remarks.flatMap (·.chars) ++ rest) settings := by
  induction remarks with
  | nil => exact h
  | cons remark remarks ih =>
    rw [List.flatMap_cons, List.append_assoc]
    exact remark.holds ih

theorem holds_line {line : List Char} {s : Setting} (hone : '\n' ∉ line)
    (hreturn : line.getLast? ≠ some '\r') (hmeans : Means line (.ok (some s))) (ending : LineEnd)
    (h : Holds rest settings) : Holds (line ++ ending.chars ++ rest) (s :: settings) := by
  obtain ⟨lines, hlines, hsays⟩ := h
  rw [List.append_assoc]
  cases ending with
  | feed => exact ⟨_, .feed hone hreturn hlines, .setting hmeans hsays⟩
  | returnFeed => exact ⟨_, .returnFeed hone hlines, .setting hmeans hsays⟩

-- ---------------------------------------------------------------------------
-- Lines of settings
-- ---------------------------------------------------------------------------

/-- A key that is found again in its line: it is not taken for a remark nor cut at its ends. -/
structure IsKey (key : List Char) : Prop where
  tight : Tight key
  start : ∃ c more, key = c :: more ∧ isBlank c = false ∧ c ≠ '#'
  whole : '=' ∉ key
  oneLine : '\n' ∉ key

theorem isKey_prompt : IsKey promptKey where
  tight := .of_ends rfl (by decide) rfl (by decide)
  start := ⟨'p', "rompt".toList, by decide, by decide, by decide⟩
  whole := by decide
  oneLine := by decide

theorem isKey_searchPath : IsKey searchPathKey where
  tight := .of_ends rfl (by decide) rfl (by decide)
  start := ⟨'s', "earch_path".toList, by decide, by decide, by decide⟩
  whole := by decide
  oneLine := by decide

theorem not_ignored {pad more : List Char} {c : Char} (hpad : AllBlank pad)
    (hshows : isBlank c = false) (hsign : c ≠ '#') : ¬ Ignored (pad ++ c :: more) := by
  have hstart (d : Char) (hd : isBlank d = false) (before after : List Char)
      (h : AllBlank before) : Text.trimStart (before ++ d :: after) = d :: after := by
    rw [Text.trimStart_append h, Text.trimStart_of_first (by simpa using hd)]
  rintro (hblank | ⟨pad', text, hpad', heq⟩)
  · have hc : isBlank c = true := hblank c (by simp)
    rw [hshows] at hc
    cases hc
  · have hsame := congrArg Text.trimStart heq
    rw [hstart c hshows _ _ hpad, hstart '#' (by decide) _ _ hpad'] at hsame
    exact hsign (List.cons.inj hsame).1

theorem not_mem_of_allBlank {pad : List Char} (h : AllBlank pad) : '=' ∉ pad := by
  intro hmem
  have hblank := h '=' hmem
  simp [isBlank] at hblank

section
variable {style : Style} {key value : List Char} (hkey : IsKey key)
include hkey

theorem Style.not_ignored_line : ¬ Ignored (style.line key value) := by
  obtain ⟨c, more, rfl, hshows, hsign⟩ := hkey.start
  rw [Style.line, List.append_assoc]
  exact not_ignored style.before.blank hshows hsign

theorem Style.assigns : Assigns (style.line key value)
    (style.before.chars ++ (key ++ style.after.chars)) value := by
  refine ⟨rfl, ?_⟩
  simp only [List.mem_append, not_or]
  exact ⟨not_mem_of_allBlank style.before.blank, hkey.whole, not_mem_of_allBlank style.after.blank⟩

theorem Style.trims : Trims (style.before.chars ++ (key ++ style.after.chars)) key :=
  ⟨hkey.tight, _, _, style.before.blank, style.after.blank, rfl⟩

theorem Style.oneLine_line (hvalue : '\n' ∉ value) : '\n' ∉ style.line key value := by
  simp only [Style.line, List.mem_append, List.mem_cons, not_or]
  exact ⟨⟨style.before.oneLine, hkey.oneLine, style.after.oneLine⟩, by decide, hvalue⟩

omit hkey in
theorem Style.getLast?_line (hvalue : value.getLast? ≠ some '\r') :
    (style.line key value).getLast? ≠ some '\r' := by
  rw [Style.line, List.getLast?_append, List.getLast?_cons]
  cases hlast : value.getLast? with
  | none => simp
  | some c => simpa [hlast] using hvalue

theorem Style.holds {s : Setting} (hone : '\n' ∉ value) (hreturn : value.getLast? ≠ some '\r')
    (hmeans : Means (style.line key value) (.ok (some s))) (h : Holds rest settings) :
    Holds (style.chars key value ++ rest) (s :: settings) :=
  holds_line (Style.oneLine_line hkey hone) (Style.getLast?_line hreturn) hmeans style.ending h

end

-- ---------------------------------------------------------------------------
-- The text of a search path
-- ---------------------------------------------------------------------------

theorem getLast?_intercalate {sep last : Char} {parts : List (List Char)} (hne : parts ≠ [])
    (h : ∀ part ∈ parts, part.getLast? = some last) :
    ([sep].intercalate parts).getLast? = some last := by
  induction parts with
  | nil => exact absurd rfl hne
  | cons part parts ih =>
    cases parts with
    | nil => simpa using h part List.mem_cons_self
    | cons next more =>
      have hmore := ih (List.cons_ne_nil _ _) fun p hp => h p (List.mem_cons_of_mem part hp)
      rw [List.intercalate_cons_cons, List.getLast?_append, hmore]
      rfl

theorem head?_intercalate {sep : Char} {part : List Char} (hne : part ≠ [])
    (more : List (List Char)) : ([sep].intercalate (part :: more)).head? = part.head? := by
  obtain ⟨c, tail, rfl⟩ := List.exists_cons_of_ne_nil hne
  cases more with
  | nil => simp
  | cons next more => simp

section
variable {path : SearchPath}

theorem pathText_last (path : SearchPath) :
    pathText path = [] ∨ (pathText path).getLast? = some '/' := by
  by_cases hne : path.dirs.map String.toList = []
  · left
    rw [pathText, hne]
    rfl
  · right
    refine getLast?_intercalate hne fun part hpart => ?_
    obtain ⟨dir, hdir, rfl⟩ := List.mem_map.mp hpart
    exact path.closed dir hdir

theorem tight_pathText
    (hfirst : ∀ dir ∈ path.dirs.head?, ∀ ch ∈ dir.toList.head?, isBlank ch = false) :
    Tight (pathText path) where
  first := by
    intro ch hch
    cases hdirs : path.dirs with
    | nil => simp [pathText, hdirs, List.intercalate] at hch
    | cons dir more =>
      have hslash : EndsInSlash dir := path.closed dir (by simp [hdirs])
      have hne : dir.toList ≠ [] := by
        intro hempty
        simp [EndsInSlash, hempty] at hslash
      rw [pathText, hdirs, List.map_cons, head?_intercalate hne] at hch
      exact hfirst dir (by simp [hdirs]) ch hch
  last := by
    intro ch hch
    rcases pathText_last path with hempty | hlast
    · simp [hempty] at hch
    · obtain rfl : '/' = ch := by simpa [hlast] using hch
      decide

/-- The entries of a search path are what stands between the colons of its text, or there is
nothing and no entry. -/
theorem exists_parts (hentries : ∀ dir ∈ path.dirs, ':' ∉ dir.toList) :
    ∃ parts, Parts ':' (pathText path) parts ∧ Closes (parts.map String.ofList) path.dirs := by
  by_cases hne : path.dirs = []
  · refine ⟨[[]], Text.parts_iff.mpr (by simp [pathText, hne, List.intercalate, Text.pieces]), ?_⟩
    rw [hne]
    exact .empty .nil
  · refine ⟨path.dirs.map String.toList, ⟨by simpa using hne, rfl, ?_⟩, ?_⟩
    · intro part hpart
      obtain ⟨dir, hdir, rfl⟩ := List.mem_map.mp hpart
      exact hentries dir hdir
    · have hback : (path.dirs.map String.toList).map String.ofList = path.dirs := by
        simp [Function.comp_def]
      rw [hback]
      exact SearchPath.closes_dirs path

end

-- ---------------------------------------------------------------------------
-- Reading what was written
-- ---------------------------------------------------------------------------

variable {c : Config}

theorem Writable.holds_prompt (h : c.Writable) (style : Style) (hrest : Holds rest settings) :
    Holds (style.chars promptKey c.prompt.toList ++ rest) (.prompt c.prompt :: settings) := by
  have hmeans : Means (style.line promptKey c.prompt.toList)
      (.ok (some (.prompt (String.ofList c.prompt.toList)))) :=
    .prompt (Style.not_ignored_line isKey_prompt) (Style.assigns isKey_prompt)
      (Style.trims isKey_prompt)
  rw [String.ofList_toList] at hmeans
  exact Style.holds isKey_prompt h.prompt h.promptEnd hmeans hrest

theorem Writable.holds_searchPath (h : c.Writable) (style : Style)
    (hrest : Holds rest settings) :
    Holds (style.chars searchPathKey (pathText c.searchPath) ++ rest)
      (.searchPath c.searchPath :: settings) := by
  have hkey := isKey_searchPath
  have htrims : Trims (pathText c.searchPath) (pathText c.searchPath) :=
    ⟨tight_pathText h.first, [], [], by simp [AllBlank], by simp [AllBlank], by simp⟩
  obtain ⟨parts, hparts, hcloses⟩ := exists_parts fun dir hdir => (h.entries dir hdir).1
  have hmeans : Means (style.line searchPathKey (pathText c.searchPath))
      (.ok (some (.searchPath c.searchPath))) :=
    .searchPath (Style.not_ignored_line hkey) (Style.assigns hkey) (Style.trims hkey) htrims
      hparts hcloses
  refine Style.holds hkey ?_ ?_ hmeans hrest
  · intro hfeed
    rcases mem_intercalate hfeed with hcolon | ⟨part, hpart, hmem⟩
    · simp at hcolon
    · obtain ⟨dir, hdir, rfl⟩ := List.mem_map.mp hpart
      exact (h.entries dir hdir).2 hmem
  · rcases pathText_last c.searchPath with hempty | hlast
    · simp [hempty]
    · simp [hlast]

theorem load_of_holds {text : List Char}
    (h : Holds text [.prompt c.prompt, .searchPath c.searchPath] ∨
      Holds text [.searchPath c.searchPath, .prompt c.prompt]) :
    load (String.ofList text) = .ok c := by
  apply load_of_loads
  rcases h with ⟨lines, hlines, hsays⟩ | ⟨lines, hlines, hsays⟩
  all_goals
    rw [← String.toList_ofList (l := text)] at hlines
    exact .accepted hlines hsays

/-- Reading a configuration that was written down gives it back, however it was laid out. -/
theorem load_write (layout : Layout) (h : c.Writable) : load (layout.write c) = .ok c := by
  have hbelow : Holds (layout.below.flatMap (·.chars)) [] := by
    have := holds_remarks layout.below holds_nil
    rwa [List.append_nil] at this
  apply load_of_holds
  rw [Layout.chars]
  cases layout.pathFirst with
  | false =>
    left
    refine holds_remarks _ (h.holds_prompt _ (holds_remarks _ ?_))
    exact h.holds_searchPath _ hbelow
  | true =>
    right
    refine holds_remarks _ (h.holds_searchPath _ (holds_remarks _ ?_))
    exact h.holds_prompt _ hbelow

def peculiar : Config := ⟨"a = #: ", .ofList ["/opt/my tools", " r=1/"]⟩

def sprawling : Layout where
  pathFirst := true
  above := [⟨⟨"\t# prompt=\r".toList, .feed, by decide⟩,
    .inr ⟨"\t".toList, " prompt=\r".toList, by decide, rfl⟩⟩]
  between := [⟨⟨"\u3000\x0c".toList, .returnFeed, by decide⟩, .inl (by decide)⟩,
    ⟨⟨[], .feed, by decide⟩, .inl (by decide)⟩]
  below := []
  prompt := ⟨⟨"\x0b".toList, by decide, by decide⟩, ⟨"\r".toList, by decide, by decide⟩, .feed⟩
  searchPath := ⟨⟨[], by decide, by decide⟩, ⟨"\u00a0 ".toList, by decide, by decide⟩, .returnFeed⟩

theorem load_write_sprawling : peculiar.Writable ∧
    sprawling.write peculiar = "\t# prompt=\r\nsearch_path\u00a0 =/opt/my tools/: r=1/\r\n" ++
      "\u3000\x0c\r\n\n\x0bprompt\r=a = #: \n" ∧
    load (sprawling.write peculiar) = .ok peculiar := by
  have hfirst : ∀ dir ∈ peculiar.searchPath.dirs.head?, ∀ ch ∈ dir.toList.head?,
      isBlank ch = false := by
    intro dir hdir ch hch
    obtain rfl : "/opt/my tools/" = dir := Option.some.inj hdir
    obtain rfl : '/' = ch := Option.some.inj hch
    rfl
  have h : peculiar.Writable := ⟨by decide, by decide, by decide, hfirst⟩
  exact ⟨h, by decide, load_write sprawling h⟩

end Config

end LineShell
