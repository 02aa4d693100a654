import Mathlib.Tactic.Simproc.ExistsAndEq
import LineShell.Proofs.Builtin.Performance
import LineShell.Proofs.Dispatch.Children
import LineShell.Proofs.Files.Astray
import LineShell.Proofs.Text.Squeeze

/-!
# Going where a typed line says

What follows `down` on a line names one path, the tidy form of what was typed: `down_named`. So a
name can be typed as it is exactly if it is tidy, and what `where` prints leads back to the
directory in use if that text is tidy.
-/

namespace LineShell

-- ---------------------------------------------------------------------------
-- Paths to directories
-- ---------------------------------------------------------------------------

namespace World

open Files (FileTree NodeId Path ProperName)

/-- The path leads, through every link, to a directory. -/
structure LeadsInto (w : World) (path : String) (id : NodeId) : Prop where
  followable : Followable path
  route : w.files.Route w.user .target Files.mostLinks (Path.ofBytes (bytesOf path)).names
    (w.start path) (Path.ofBytes (bytesOf path)).toDirectory (.node id)
  directory : (w.files.directory? id).isSome

variable {w w' : World} {path : String} {id : NodeId}

theorem leadsInto_iff :
    w.LeadsInto path id ↔ w.locate path = .ok id ∧ (w.files.directory? id).isSome := by
  constructor
  · rintro ⟨hfollowable, hroute, hdir⟩
    exact ⟨(locate_reaches hfollowable).mpr hroute, hdir⟩
  · rintro ⟨hlocate, hdir⟩
    have hfollowable := followable_of_locate hlocate
    exact ⟨hfollowable, (locate_reaches hfollowable).mp hlocate, hdir⟩

theorem enter_eq_ok : w.enter path = .ok w' ↔
    ∃ id, w.LeadsInto path id ∧ w.files.Opens w.user id ∧ w' = { w with cwd := id } := by
  simp only [leadsInto_iff, enter]
  cases hlocate : w.locate path with
  | error f => simp
  | ok id =>
    cases hdir : w.files.directory? id with
    | none => simp [hdir]
    | some dir =>
      cases hopens : w.files.grants w.user .execute id with
      | true => simp [hdir, hopens, FileTree.Opens, @eq_comm _ w']
      | false => simp [hdir, hopens, FileTree.Opens]

theorem LeadsInto.enter (h : w.LeadsInto path id) (hopens : w.files.Opens w.user id) :
    w.enter path = .ok { w with cwd := id } := enter_eq_ok.mpr ⟨id, h, hopens, rfl⟩

theorem isDirectory_iff : w.isDirectory path = true ↔ ∃ id, w.LeadsInto path id := by
  have htoOption :
      w.isDirectory path = true ↔ ∃ node, w.stat path = .ok node ∧ node.isDirectory := by
    rw [isDirectory, leadsTo]
    cases w.stat path <;> simp [Except.toOption]
  simp only [htoOption, stat_eq_ok, leadsInto_iff, FileTree.directory?_isSome_iff]
  constructor
  · rintro ⟨node, ⟨id, hlocate, hnode⟩, hdir⟩
    exact ⟨id, hlocate, node, hnode, hdir⟩
  · rintro ⟨id, hlocate, node, hnode, hdir⟩
    exact ⟨node, ⟨id, hlocate, hnode⟩, hdir⟩

end World

namespace Builtin

open CommandLine (fieldsIn)
open Text (AllBlank tidy)

-- ---------------------------------------------------------------------------
-- Typed lines
-- ---------------------------------------------------------------------------

/-- What dispatching a line comes to: what it tells, line by line, and what it makes of the world.
Only lines need an output that takes them. -/
structure Dispatches (d : Dispatcher) (s : Session) (line : CommandLine) (lines : List String)
    (world : World) : Prop where
  world : ((d.dispatch line).perform s).2.world = world
  result : lines = [] ∨ s.out.NeverFails → ((d.dispatch line).perform s).1 = .ok .builtin
  told : lines = [] ∨ s.out.NeverFails →
    ((d.dispatch line).perform s).2.out.contents = s.out.contents ++ inLines lines
  neverFails : s.out.NeverFails → ((d.dispatch line).perform s).2.out.NeverFails

def Typed (s : Session) (text : String) (lines : List String) (world : World) : Prop :=
  ∃ line, CommandLine.parse text = some line ∧ ∀ d : Dispatcher, Dispatches d s line lines world

section
variable {s : Session} {text : String} {line : CommandLine} {lines : List String} {world : World}

theorem typed_of_answers {replies : Replies} (hparse : CommandLine.parse text = some line)
    (hreplies : replies? line.name = some replies)
    (h : Answers s line.fields lines (.ok true) world) : Typed s text lines world := by
  refine ⟨line, hparse, fun d => ?_⟩
  have hdispatch := Dispatcher.perform_dispatch_command (d := d) (s := s) hreplies
  obtain ⟨hworld, hresult, htold, hnever⟩ := h
  refine ⟨?_, fun hlines => ?_, fun hlines => ?_, fun hn => ?_⟩
  · rw [hdispatch, hworld]
  · rw [hdispatch, hresult hlines]
    rfl
  · rw [hdispatch, htold hlines]
  · rw [hdispatch]
    exact hnever hn

def idle : Dispatcher := { searchPath := .default, launch := fun _ _ => pure (.exited 0) }

theorem Typed.world_unique {lines' : List String} {world' : World} (h : Typed s text lines world)
    (h' : Typed s text lines' world') : world = world' := by
  obtain ⟨line, hparse, hdispatch⟩ := h
  obtain ⟨line', hparse', hdispatch'⟩ := h'
  obtain rfl := Option.some.inj (hparse.symm.trans hparse')
  exact (hdispatch idle).world.symm.trans (hdispatch' idle).world

end

-- ---------------------------------------------------------------------------
-- The way down
-- ---------------------------------------------------------------------------

section
variable {w : World} {name path : String} {args : List String} {id : Files.NodeId}

theorem down_joined (hargs : args ≠ []) :
    down (name :: args) = down [name, " ".intercalate args] := by
  obtain ⟨first, rest, rfl⟩ := List.exists_cons_of_ne_nil hargs
  rfl

theorem Reply.down_joined (hargs : args ≠ []) :
    Reply.down (name :: args) w = Reply.down [name, " ".intercalate args] w := by
  obtain ⟨first, rest, rfl⟩ := List.exists_cons_of_ne_nil hargs
  rfl

theorem Reply.down_into (h : w.LeadsInto path id) (hopens : w.files.Opens w.user id) :
    Reply.down [name, path] w =
      { world := { w with cwd := id }, remarks := [.note (.entered path)] } := by
  have hdir := World.isDirectory_iff.mpr ⟨id, h⟩
  simp [Reply.down, hdir, Reply.enter, h.enter hopens, World.tried, Reply.after]

theorem Reply.down_nowhere (h : ∀ id, ¬ w.LeadsInto path id) :
    Reply.down [name, path] w = .say w ["Error directory does not exist"] := by
  have hdir := mt World.isDirectory_iff.mp (not_exists.mpr h)
  simp [Reply.down, hdir]

end

theorem fieldsIn_down (text : String) : fieldsIn ("down " ++ text) = "down" :: fieldsIn text := by
  have hdown : fieldsIn "down" = ["down"] := by decide +kernel
  have hspace : AllBlank [' '] := by decide
  have hsplit := CommandLine.fieldsIn_append hspace (List.cons_ne_nil _ _) "down" text
  rwa [hdown] at hsplit

theorem parse_down (text : String) :
    CommandLine.parse ("down " ++ text) = some ⟨"down", fieldsIn text⟩ := by
  rw [CommandLine.parse_iff_fieldsIn, fieldsIn_down, CommandLine.fields]

theorem intercalate_fieldsIn (text : String) : " ".intercalate (fieldsIn text) = tidy text := by
  rw [← String.toList_inj, Text.toList_tidy, String.toList_intercalate,
    CommandLine.map_toList_fieldsIn]
  rfl

theorem fieldsIn_ne_nil {text : String} (h : ¬ AllBlank text.toList) : fieldsIn text ≠ [] := by
  intro hnil
  have hwords := CommandLine.map_toList_fieldsIn text
  rw [hnil] at hwords
  exact h (Text.words_eq_nil.mp hwords.symm)

theorem down_fieldsIn {text : String} (h : ¬ AllBlank text.toList) :
    down ("down" :: fieldsIn text) = down ["down", tidy text] := by
  rw [down_joined (fieldsIn_ne_nil h), intercalate_fieldsIn]

section
variable {s : Session} {text : String} {id : Files.NodeId}

theorem Reply.down_fieldsIn (h : ¬ AllBlank text.toList) (w : World) :
    Reply.down ("down" :: fieldsIn text) w = Reply.down ["down", tidy text] w := by
  rw [Reply.down_joined (fieldsIn_ne_nil h), intercalate_fieldsIn]

theorem typed_down_into (h : ¬ AllBlank text.toList) (hinto : s.world.LeadsInto (tidy text) id)
    (hopens : s.world.files.Opens s.world.user id) :
    Typed s ("down " ++ text) [] { s.world with cwd := id } := by
  have hreply := (Reply.down_fieldsIn h s.world).trans (Reply.down_into hinto hopens)
  exact typed_of_answers (parse_down text) rfl (answers_of_reply rfl hreply rfl)

theorem typed_down_nowhere (h : ¬ AllBlank text.toList)
    (hno : ∀ id, ¬ s.world.LeadsInto (tidy text) id) :
    Typed s ("down " ++ text) ["Error directory does not exist"] s.world := by
  have hreply := (Reply.down_fieldsIn h s.world).trans (Reply.down_nowhere hno)
  exact typed_of_answers (parse_down text) rfl (answers_say rfl hreply)

theorem typed_down_blank (h : AllBlank text.toList) :
    Typed s ("down " ++ text) (arityComplaint ["down"] 1).toList s.world := by
  have hnil : fieldsIn text = [] := by
    rw [← CommandLine.map_toList_inj, CommandLine.map_toList_fieldsIn, Text.words_eq_nil.mpr h]
    rfl
  have hparse := parse_down text
  rw [hnil] at hparse
  exact typed_of_answers hparse rfl (answers_say rfl rfl)

end

-- ---------------------------------------------------------------------------
-- Names typed as they are
-- ---------------------------------------------------------------------------

/-- Typing a name as it is leads into the directory of that name, in every world whose user may
follow names in both directories. -/
def Typable (name : String) : Prop :=
  ∀ (s : Session) (id : Files.NodeId), s.world.files.Enters s.world.cwd (bytesOf name) id →
    (s.world.files.directory? id).isSome → s.world.files.Opens s.world.user s.world.cwd →
    s.world.files.Opens s.world.user id →
    Typed s ("down " ++ name) [] { s.world with cwd := id }

theorem leadsInto_of_enters {w : World} {name : String} {id : Files.NodeId}
    (h : Files.ProperName (bytesOf name)) (henters : w.files.Enters w.cwd (bytesOf name) id)
    (hdir : (w.files.directory? id).isSome) (hopens : w.files.Opens w.user w.cwd) :
    w.LeadsInto name id := by
  obtain ⟨dir, hid⟩ := Option.isSome_iff_exists.mp hdir
  rw [World.leadsInto_iff, World.locate_eq_ok]
  refine ⟨⟨_, World.pathBytes_of_proper h, ?_⟩, hdir⟩
  rw [Files.FileTree.lookup_eq_ok, h.place_eq_ok]
  exact .entry (h.sought _ []) hopens henters (Files.FileTree.link?_of_directory? hid) (.done nofun)

def lone (name : String) : World := { World.fresh with
  files := ⟨#[
    ⟨.directory ⟨Files.FileTree.root, [(bytesOf name, 1)]⟩, 0o755, 0, World.dawn⟩,
    ⟨.directory ⟨Files.FileTree.root, []⟩, 0o755, 0, World.dawn⟩]⟩ }

theorem lone_enters (name : String) :
    (lone name).files.Enters Files.FileTree.root (bytesOf name) 1 :=
  ⟨_, rfl, by simp [Files.Directory.find?]⟩

theorem lone_route {name : String} (h : Files.ProperName (bytesOf name)) :
    (lone name).files.Route (lone name).user .target Files.mostLinks [bytesOf name]
      Files.FileTree.root false (.node 1) :=
  .entry (h.sought _ []) rfl (lone_enters name) rfl (.done nofun)

theorem lone_leadsInto {name path : String} (hslash : Files.slash ∉ bytesOf path)
    (h : (lone name).LeadsInto path 1) : path = name := by
  obtain ⟨hfollowable, hroute, -⟩ := h
  have hne := mt World.bytesOf_eq_nil.mp hfollowable.nonempty
  rw [World.start, Files.Path.ofBytes_of_noSlash hne hslash] at hroute
  rw [← bytesOf_inj]
  generalize bytesOf path = bytes at hroute
  cases hroute with
  | here _ _ hend => cases hend
  | above hdir _ hend =>
    cases hdir
    cases hend
  | entry _ _ henters _ _ | through _ _ henters _ _ _ =>
    obtain ⟨dir, hdir, hfind⟩ := henters
    cases hdir
    obtain ⟨entry, hentry, -⟩ := Option.map_eq_some_iff.mp hfind
    obtain rfl := List.mem_singleton.mp (List.mem_of_find?_eq_some hentry)
    have hname := List.find?_some hentry
    exact (of_decide_eq_true hname).symm
  | itself haim _ _ _ _ => cases haim

theorem slash_not_mem_tidy {name : String} (h : Files.slash ∉ bytesOf name) :
    Files.slash ∉ bytesOf (tidy name) := by
  intro hmem
  obtain ⟨c, hc, hslash⟩ := List.mem_flatMap.mp hmem
  rcases Text.mem_tidy hc with rfl | hname
  · exact absurd hslash (by decide)
  · exact h (List.mem_flatMap.mpr ⟨c, hname, hslash⟩)

theorem typable_iff {name : String} (h : Files.ProperName (bytesOf name)) :
    Typable name ↔ tidy name = name := by
  constructor
  · intro htypable
    have hdown := htypable { world := lone name } 1 (lone_enters name) rfl rfl rfl
    have hmoved {lines : List String} :
        ¬ Typed { world := lone name } ("down " ++ name) lines (lone name) := by
      intro hstay
      cases congrArg World.cwd (hdown.world_unique hstay)
    have hnotBlank : ¬ AllBlank name.toList := fun hblank => hmoved (typed_down_blank hblank)
    by_cases hinto : ∃ id, (lone name).LeadsInto (tidy name) id
    · obtain ⟨id, hinto⟩ := hinto
      obtain ⟨dir, hdir⟩ := Option.isSome_iff_exists.mp hinto.directory
      have hopens := Files.FileTree.grants_superuser hdir .execute
      have hsame := hdown.world_unique (typed_down_into hnotBlank hinto hopens)
      obtain rfl : 1 = id := congrArg World.cwd hsame
      exact lone_leadsInto (slash_not_mem_tidy h.noSlash) hinto
    · exact absurd (typed_down_nowhere hnotBlank (not_exists.mp hinto)) hmoved
  · intro htidy s id henters hdir hcwd hopens
    have hnotBlank : ¬ AllBlank name.toList := by
      intro hblank
      rw [← Text.tidy_eq_empty, htidy, ← World.bytesOf_eq_nil] at hblank
      exact h.nonempty hblank
    have hinto := leadsInto_of_enters h henters hdir hcwd
    rw [← htidy] at hinto
    exact typed_down_into hnotBlank hinto hopens

-- ---------------------------------------------------------------------------
-- The way back
-- ---------------------------------------------------------------------------

theorem absolute_render (names : List Files.Name) :
    (Files.Path.ofBytes (Files.Path.render names)).absolute = true := by
  cases names with
  | nil => rfl
  | cons name names => simp [Files.Path.ofBytes, Files.Path.render]

/-- Where a path from the root leads does not depend on the directory in use. -/
theorem leadsInto_elsewhere {w w' : World} {path : String} {id : Files.NodeId}
    (hpath : w.currentPath = .ok (bytesOf path)) (hfiles : w'.files = w.files)
    (huser : w'.user = w.user) (h : w.LeadsInto path id) : w'.LeadsInto path id := by
  obtain ⟨hfollowable, hroute, hdir⟩ := h
  have habsolute : (Files.Path.ofBytes (bytesOf path)).absolute = true := by
    obtain ⟨names, hrender⟩ := World.currentPath_ok hpath
    rw [← hrender, absolute_render]
  rw [World.start, if_pos habsolute] at hroute
  refine ⟨hfollowable, ?_, hfiles ▸ hdir⟩
  rw [World.start, if_pos habsolute, hfiles, huser]
  exact hroute

theorem typed_where {s : Session} {path : Bytes} (h : s.world.currentPath = .ok path) :
    Typed s "where" [shown path] s.world := by
  have hparse : CommandLine.parse "where" = some ⟨"where", []⟩ := by decide +kernel
  have hreply : Reply.whereAmI ["where"] s.world = .say s.world [shown path] := by
    simp [Reply.whereAmI, Reply.nullary, Reply.gated, arityComplaint, given, h, Reply.about]
  exact typed_of_answers hparse rfl (answers_say rfl hreply)

-- ---------------------------------------------------------------------------
-- Typed texts
-- ---------------------------------------------------------------------------

structure Named (text : String) : Prop where
  onePath : ¬ AllBlank text.toList → ∃ line, CommandLine.parse ("down " ++ text) = some line ∧
    down line.fields = down ["down", tidy text]
  into : ¬ AllBlank text.toList → ∀ (s : Session) id, s.world.LeadsInto (tidy text) id →
    s.world.files.Opens s.world.user id →
    Typed s ("down " ++ text) [] { s.world with cwd := id }
  nowhere : ¬ AllBlank text.toList → ∀ s : Session, (∀ id, ¬ s.world.LeadsInto (tidy text) id) →
    Typed s ("down " ++ text) ["Error directory does not exist"] s.world
  tidy_tidy : tidy (tidy text) = tidy text
  typable_iff : Files.ProperName (bytesOf text) → (Typable text ↔ tidy text = text)
  /-- The path of a directory is printed there and leads back from anywhere. -/
  back : tidy text = text → ∀ s : Session, s.world.currentPath = .ok (bytesOf text) →
    s.world.LeadsInto text s.world.cwd → s.world.files.Opens s.world.user s.world.cwd →
    Typed s "where" [text] s.world ∧
      ∀ (s' : Session) blanks, AllBlank blanks → s'.world.files = s.world.files →
        s'.world.user = s.world.user →
        Typed s' ("down " ++ (text ++ String.ofList blanks)) []
          { s'.world with cwd := s.world.cwd }

theorem down_named (text : String) : Named text where
  onePath h := ⟨_, parse_down text, down_fieldsIn h⟩
  into h _ _ hinto hopens := typed_down_into h hinto hopens
  nowhere h _ hno := typed_down_nowhere h hno
  tidy_tidy := Text.tidy_tidy text
  typable_iff := Builtin.typable_iff
  back htidy s hpath hinto hopens := by
    refine ⟨shown_bytesOf text ▸ typed_where hpath, fun s' blanks hblanks hfiles huser => ?_⟩
    have hwords : Text.words (text ++ String.ofList blanks).toList = Text.words text.toList := by
      rw [String.toList_append, String.toList_ofList, Text.words_append_blanks hblanks]
    have hsame : tidy (text ++ String.ofList blanks) = text := (Text.tidy_congr hwords).trans htidy
    have hnotBlank : ¬ AllBlank (text ++ String.ofList blanks).toList := by
      rw [← Text.tidy_eq_empty, hsame]
      exact hinto.followable.nonempty
    refine typed_down_into hnotBlank ?_ (by rwa [hfiles, huser])
    rw [hsame]
    exact leadsInto_elsewhere hpath hfiles huser hinto

theorem down_named_spaced :
    let inside : World := { lone "a b" with cwd := 1 }
    inside.currentPath = .ok (bytesOf "/a b") ∧ inside.LeadsInto "/a b" 1 ∧
      Typed { world := inside } "where" ["/a b"] inside ∧
      Typed { world := lone "a b" } "down /a b\n" [] inside := by
  intro inside
  have hroot : inside.files.namesOf? Files.FileTree.root = some [] := by
    rw [Files.FileTree.namesOf?]
    rfl
  have hnames : inside.files.namesOf? 1 = some [bytesOf "a b"] := by
    rw [Files.FileTree.namesOf?]
    change (inside.files.namesOf? Files.FileTree.root).bind _ = _
    rw [hroot]
    rfl
  have hpath : inside.currentPath = .ok (bytesOf "/a b") := by
    rw [World.currentPath, hnames]
    rfl
  have htidy : tidy "/a b" = "/a b" := by decide +kernel
  have hinto : inside.LeadsInto "/a b" 1 :=
    ⟨⟨by decide, by decide, by decide⟩, lone_route (by decide), rfl⟩
  obtain ⟨hwhere, hback⟩ := (down_named "/a b").back htidy { world := inside } hpath hinto rfl
  exact ⟨hpath, hinto, hwhere, hback { world := lone "a b" } ['\n'] (by decide) rfl rfl⟩

end Builtin

end LineShell
