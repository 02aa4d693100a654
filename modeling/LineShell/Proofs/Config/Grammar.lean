import LineShell.Config.Reader
import LineShell.Proofs.Config.Closing
import LineShell.Proofs.Text.Lines
import LineShell.Proofs.Text.Trim

/-!
# What a configuration says

The grammar of configurations: what each line means, and what a text comes to by its lines.
`load_grammar`: reading accepts just the texts of the grammar, with the last prompt and the last
search path that they name, and of any other text reports the first line that is at fault.
-/

namespace LineShell.Config

open SearchPath (Closes closes_iff)
open Text (AllBlank Lines Parts Trims)

-- ---------------------------------------------------------------------------
-- The grammar
-- ---------------------------------------------------------------------------

/-- A line that says nothing: nothing of it shows, or it starts with a number sign. -/
def Ignored (line : List Char) : Prop :=
  AllBlank line ∨ ∃ pad text, AllBlank pad ∧ line = pad ++ '#' :: text

/-- The line is an assignment, cut at its first equals sign. -/
def Assigns (line key value : List Char) : Prop := line = key ++ '=' :: value ∧ '=' ∉ key

inductive Means : List Char → Except LineFault (Option Setting) → Prop
  | ignored {line : List Char} : Ignored line → Means line (.ok none)
  | prompt {line key value : List Char} : ¬ Ignored line → Assigns line key value →
      Trims key "prompt".toList → Means line (.ok (some (.prompt (String.ofList value))))
  | searchPath {line key value dirs : List Char} {parts : List (List Char)} {path : SearchPath} :
      ¬ Ignored line → Assigns line key value → Trims key "search_path".toList →
      Trims value dirs → Parts ':' dirs parts → Closes (parts.map String.ofList) path.dirs →
      Means line (.ok (some (.searchPath path)))
  | noEquals {line : List Char} : ¬ Ignored line → '=' ∉ line →
      Means line (.error (.noEquals (String.ofList line)))
  | unknownKey {line key value name : List Char} : ¬ Ignored line → Assigns line key value →
      Trims key name → name ≠ "prompt".toList → name ≠ "search_path".toList →
      Means line (.error (.unknownKey (String.ofList name)))

/-- The settings that lines without a fault make, in order. -/
inductive Says : List (List Char) → List Setting → Prop
  | nil : Says [] []
  | ignored {line : List Char} {rest : List (List Char)} {settings : List Setting} :
      Means line (.ok none) → Says rest settings → Says (line :: rest) settings
  | setting {line : List Char} {rest : List (List Char)} {s : Setting}
      {settings : List Setting} :
      Means line (.ok (some s)) → Says rest settings → Says (line :: rest) (s :: settings)

def Setting.prompt? : Setting → Option String
  | .prompt text => some text
  | .searchPath _ => none

def Setting.searchPath? : Setting → Option SearchPath
  | .prompt _ => none
  | .searchPath path => some path

def lastPrompt (settings : List Setting) : String :=
  (settings.filterMap Setting.prompt?).getLast?.getD "PShell>"

def lastSearchPath (settings : List Setting) : SearchPath :=
  (settings.filterMap Setting.searchPath?).getLast?.getD
    ⟨["/bin/", "/usr/bin/", "/usr/local/bin/", "./"], by decide⟩

/-- What a text comes to. Faults are looked for from the top, and lines that say nothing count. -/
inductive Loads (text : String) : Except Error Config → Prop
  | accepted {lines : List (List Char)} {settings : List Setting} : Lines text.toList lines →
      Says lines settings → Loads text (.ok ⟨lastPrompt settings, lastSearchPath settings⟩)
  | rejected {before after : List (List Char)} {line : List Char} {settings : List Setting}
      {fault : LineFault} : Lines text.toList (before ++ line :: after) → Says before settings →
      Means line (.error fault) → Loads text (.error (.malformed ⟨before.length + 1, fault⟩))

-- ---------------------------------------------------------------------------
-- One line
-- ---------------------------------------------------------------------------

theorem readLine_ignored {line : List Char} (h : Ignored line) : readLine line = .ok none := by
  rcases h with h | ⟨pad, text, hpad, rfl⟩
  · rw [readLine, Text.trimStart_eq_nil.mpr h]
  · have hstart : Text.trimStart ('#' :: text) = '#' :: text :=
      Text.trimStart_of_first (by simp [Text.isBlank])
    rw [readLine, Text.trimStart_append hpad, hstart]
    rfl

theorem readLine_shown {line : List Char} (h : ¬ Ignored line) :
    readLine line =
      match Text.cutAt '=' line with
      | none => .error (.noEquals (String.ofList line))
      | some (key, value) => (setting (Text.trim key) value).map some := by
  obtain ⟨pad, hpad, hline⟩ := Text.exists_append_trimStart line
  rw [readLine]
  split
  · next hnil => exact absurd (.inl (Text.trimStart_eq_nil.mp hnil)) h
  · next text hsign => exact absurd (.inr ⟨pad, text, hpad, hsign ▸ hline⟩) h
  · rfl

theorem readLine_assigns {line key value name : List Char} (h : ¬ Ignored line)
    (ha : Assigns line key value) (hk : Trims key name) :
    readLine line = (setting name value).map some := by
  rw [readLine_shown h, Text.cutAt_iff.mpr ha]
  simp only [Text.trim_of_trims hk]

theorem setting_searchPath {value dirs : List Char} {parts : List (List Char)}
    {path : SearchPath} (hv : Trims value dirs) (hp : Parts ':' dirs parts)
    (hc : Closes (parts.map String.ofList) path.dirs) :
    setting "search_path".toList value = .ok (.searchPath path) := by
  have hne : "search_path".toList ≠ "prompt".toList := by decide
  rw [setting, if_neg hne, if_pos rfl, Text.trim_of_trims hv, Text.parts_iff.mp hp,
    ← closes_iff.mp hc]

theorem setting_unknown {name value : List Char} (hprompt : name ≠ "prompt".toList)
    (hpath : name ≠ "search_path".toList) :
    setting name value = .error (.unknownKey (String.ofList name)) := by
  rw [setting, if_neg hprompt, if_neg hpath]

variable {line : List Char} {result : Except LineFault (Option Setting)}

theorem readLine_of_means (h : Means line result) : readLine line = result := by
  cases h with
  | ignored h => exact readLine_ignored h
  | prompt h ha hk =>
    rw [readLine_assigns h ha hk, setting, if_pos rfl]
    rfl
  | searchPath h ha hk hv hp hc =>
    rw [readLine_assigns h ha hk, setting_searchPath hv hp hc]
    rfl
  | noEquals h he => rw [readLine_shown h, Text.cutAt_eq_none.mpr he]
  | unknownKey h ha hk hprompt hpath =>
    rw [readLine_assigns h ha hk, setting_unknown hprompt hpath]
    rfl

theorem exists_means (line : List Char) : ∃ result, Means line result := by
  by_cases h : Ignored line
  · exact ⟨_, .ignored h⟩
  · cases hcut : Text.cutAt '=' line with
    | none => exact ⟨_, .noEquals h (Text.cutAt_eq_none.mp hcut)⟩
    | some cut =>
      obtain ⟨key, value⟩ := cut
      have ha : Assigns line key value := Text.cutAt_iff.mp hcut
      have hk := Text.trims_trim key
      by_cases hprompt : Text.trim key = "prompt".toList
      · exact ⟨_, .prompt h ha (hprompt ▸ hk)⟩
      · by_cases hpath : Text.trim key = "search_path".toList
        · exact ⟨_, .searchPath h ha (hpath ▸ hk) (Text.trims_trim value) (Text.parts_iff.mpr rfl)
            (closes_iff.mpr rfl)⟩
        · exact ⟨_, .unknownKey h ha hk hprompt hpath⟩

theorem readLine_iff : readLine line = result ↔ Means line result := by
  constructor
  · rintro rfl
    obtain ⟨meant, h⟩ := exists_means line
    rwa [readLine_of_means h]
  · exact readLine_of_means

-- ---------------------------------------------------------------------------
-- All lines
-- ---------------------------------------------------------------------------

variable {lines : List (List Char)} {settings : List Setting}

theorem readLines_cons {said : Option Setting} (h : Means line (.ok said)) (number : Nat) :
    readLines ((line :: lines).zipIdx number) =
      (readLines (lines.zipIdx (number + 1))).map (said.toList ++ ·) := by
  rw [List.zipIdx_cons, readLines, readLine_of_means h]
  cases said with
  | some s => rfl
  | none =>
    cases readLines (lines.zipIdx (number + 1)) with
    | error fault => rfl
    | ok settings => rfl

theorem readLines_of_says (h : Says lines settings) (number : Nat) :
    readLines (lines.zipIdx number) = .ok settings := by
  induction h generalizing number with
  | nil => rfl
  | ignored hline _ ih | setting hline _ ih =>
    rw [readLines_cons hline, ih (number + 1)]
    rfl

theorem readLines_of_fault {before after : List (List Char)} {fault : LineFault}
    (h : Says before settings) (hf : Means line (.error fault)) (number : Nat) :
    readLines ((before ++ line :: after).zipIdx number) =
      .error ⟨number + before.length, fault⟩ := by
  induction h generalizing number with
  | nil =>
    rw [List.nil_append, List.zipIdx_cons, readLines, readLine_of_means hf]
    rfl
  | ignored hline _ ih | setting hline _ ih =>
    rw [List.cons_append, readLines_cons hline, ih (number + 1), List.length_cons, Except.map,
      Nat.add_assoc, Nat.add_comm 1]

/-- Lines make settings, unless one of them is at fault, and then there is a first one. -/
theorem says_or_fault (lines : List (List Char)) :
    (∃ settings, Says lines settings) ∨
      ∃ before line after settings fault, lines = before ++ line :: after ∧
        Says before settings ∧ Means line (.error fault) := by
  induction lines with
  | nil => exact .inl ⟨[], .nil⟩
  | cons line rest ih =>
    obtain ⟨result, hline⟩ := exists_means line
    cases result with
    | error fault => exact .inr ⟨[], line, rest, [], fault, rfl, .nil, hline⟩
    | ok said =>
      have hmore : ∀ {ls settings}, Says ls settings → ∃ settings, Says (line :: ls) settings := by
        intro ls settings h
        cases said with
        | none => exact ⟨_, .ignored hline h⟩
        | some s => exact ⟨_, .setting hline h⟩
      rcases ih with ⟨settings, h⟩ | ⟨before, faulty, after, settings, fault, rfl, h, hf⟩
      · exact .inl (hmore h)
      · obtain ⟨settings', h'⟩ := hmore h
        exact .inr ⟨line :: before, faulty, after, settings', fault, rfl, h', hf⟩

-- ---------------------------------------------------------------------------
-- The whole text
-- ---------------------------------------------------------------------------

theorem foldl_apply (settings : List Setting) (config : Config) :
    settings.foldl apply config =
      ⟨(settings.filterMap Setting.prompt?).getLast?.getD config.prompt,
        (settings.filterMap Setting.searchPath?).getLast?.getD config.searchPath⟩ := by
  induction settings generalizing config with
  | nil => rfl
  | cons s rest ih =>
    rw [List.foldl_cons, ih]
    cases s with
    | prompt text => simp [apply, Setting.prompt?, Setting.searchPath?, List.getLast?_cons]
    | searchPath path => simp [apply, Setting.prompt?, Setting.searchPath?, List.getLast?_cons]

theorem ofSettings_eq (settings : List Setting) :
    ofSettings settings = ⟨lastPrompt settings, lastSearchPath settings⟩ :=
  foldl_apply settings .default

theorem load_of_loads {text : String} {result : Except Error Config} (h : Loads text result) :
    load text = result := by
  cases h with
  | accepted hlines hmeant =>
    rw [load, parse, Text.lines_of_lines hlines, readLines_of_says hmeant, Except.map,
      ofSettings_eq]
    rfl
  | rejected hlines hmeant hf =>
    rw [load, parse, Text.lines_of_lines hlines, readLines_of_fault hmeant hf, Nat.add_comm]
    rfl

theorem message_malformed (number : Nat) (fault : LineFault) :
    (Error.malformed ⟨number, fault⟩).message =
      "Parse error: Line " ++ toString number ++ ": " ++ fault.message := by
  have hjoin : "Parse error: " ++ "Line " = "Parse error: Line " := rfl
  rw [← hjoin, Error.message, Error.describe, Fault.message]
  simp only [String.append_assoc, toString]

theorem exists_loads (text : String) : ∃ result, Loads text result := by
  have hlines := Text.lines_lines text.toList
  rcases says_or_fault (Text.lines text.toList) with ⟨settings, hmeant⟩ |
    ⟨before, line, after, settings, fault, hcut, hmeant, hf⟩
  · exact ⟨_, .accepted hlines hmeant⟩
  · rw [hcut] at hlines
    exact ⟨_, .rejected hlines hmeant hf⟩

/-- Reading is what the grammar says, and a fault is reported with its line and its reason. -/
theorem load_grammar (text : String) :
    (∀ result, load text = result ↔ Loads text result) ∧
      (∀ number line, (Error.malformed ⟨number, .noEquals line⟩).message =
        "Parse error: Line " ++ toString number ++ ": " ++ ("No '=' found: " ++ line)) ∧
      ∀ number key, (Error.malformed ⟨number, .unknownKey key⟩).message =
        "Parse error: Line " ++ toString number ++ ": " ++ ("Unknown key: " ++ key) := by
  refine ⟨fun result => ⟨?_, load_of_loads⟩, fun number line => message_malformed number _,
    fun number key => message_malformed number _⟩
  rintro rfl
  obtain ⟨result, h⟩ := exists_loads text
  rwa [load_of_loads h]

example : load "# x\r\n\nprompt = $ \nname =1" = .error (.malformed ⟨4, .unknownKey "name"⟩) := by
  rfl

example : (load "search_path = a::b/:c \r\n").toOption.map (·.searchPath.dirs) =
    some ["a/", "b/", "c/"] := by
  rfl

end LineShell.Config
